import Hdds.Foundations.Bytes
import Hdds.Foundations.Codec

/-! # The XRCE wire format

`hdds-xrce/src/protocol.rs`: a datagram is a 4-byte message header (session id, stream id,
sequence number) followed by submessages, each a 4-byte header (id, flags, payload length)
and its payload. All multi-byte integers are little-endian.

* `parseMessage` is all or nothing: one malformed submessage rejects the whole datagram.
  Its loop runs on the buffer length as fuel; every submessage consumes at least its header.
* `parseMessage_serializeMessage`: what `serializeMessage` writes parses back to the same
  message, as long as every payload fits the 16-bit length field.
* Text (topic and type names) is kept as its UTF-8 bytes; `String::from_utf8_lossy` is not
  modelled, the bridge receives the bytes.
-/

namespace Hdds.Xrce
open Wire
set_option autoImplicit false

/-- `XrceError`. -/
inductive XrceError
  | BufferTooShort
  | UnknownSubmessageId (id : UInt8)
  | UnknownObjectKind (kind : UInt8)
  | UnknownStatusCode (code : UInt8)
  | PayloadLengthMismatch
  | SessionFull
  | SessionNotFound (id : UInt8)
  | ObjectNotFound (id : UInt16)
  | Io (msg : String)
  | FragmentError (msg : String)
  | BridgeError (msg : String)
  | SessionTimeout
  | ConfigError (msg : String)
deriving DecidableEq, Repr

/-! ## Constants -/

def messageHeaderSize : ℕ := 4
def submessageHeaderSize : ℕ := 4

def submsgCreateClient : UInt8 := 0x00
def submsgCreate : UInt8 := 0x01
def submsgDelete : UInt8 := 0x02
def submsgStatus : UInt8 := 0x05
def submsgWriteData : UInt8 := 0x07
def submsgReadData : UInt8 := 0x08
def submsgData : UInt8 := 0x09
def submsgHeartbeat : UInt8 := 0x0D
def submsgAcknack : UInt8 := 0x0E

def objParticipant : UInt8 := 0x01
def objTopic : UInt8 := 0x02
def objPublisher : UInt8 := 0x03
def objSubscriber : UInt8 := 0x04
def objDatawriter : UInt8 := 0x05
def objDatareader : UInt8 := 0x06

def statusOk : UInt8 := 0x00
def statusErrUnknownRef : UInt8 := 0x01
def statusErrInvalidData : UInt8 := 0x02
def statusErrIncompatible : UInt8 := 0x03
def statusErrResources : UInt8 := 0x04

/-! ## Little-endian 16-bit fields -/

/-- `u16::from_le_bytes([lo, hi])`. -/
def u16FromLeBytes (lo hi : UInt8) : UInt16 := UInt16.ofNat (ofLE [lo, hi])

/-- `x.to_le_bytes()` for a `u16`. -/
def u16ToLeBytes (x : UInt16) : List UInt8 := toLE 2 x.toNat

/-- `u16::from_le_bytes([buf[off], buf[off + 1]])`, for an offset the caller has checked. -/
def u16At (buf : List UInt8) (off : ℕ) : UInt16 := u16FromLeBytes (buf.getD off 0) (buf.getD (off + 1) 0)

@[simp] theorem u16ToLeBytes_eq (x : UInt16) :
    u16ToLeBytes x = [UInt8.ofNat x.toNat, UInt8.ofNat (x.toNat / 256)] := rfl

@[simp] theorem u16FromLeBytes_toLe (x : UInt16) :
    u16FromLeBytes x.toUInt8 (UInt8.ofNat (x.toNat / 256)) = x := by
  have h : ofLE (toLE 2 x.toNat) = x.toNat := ofLE_toLE_of_lt (by simpa using x.toNat_lt)
  unfold u16FromLeBytes
  rw [show [x.toUInt8, UInt8.ofNat (x.toNat / 256)] = toLE 2 x.toNat from rfl, h,
    UInt16.ofNat_toNat]

@[simp] theorem length_u16ToLeBytes (x : UInt16) : (u16ToLeBytes x).length = 2 := rfl

/-! ## Enumerations -/

/-- `ObjectKind`. -/
inductive ObjectKind
  | Participant | Topic | Publisher | Subscriber | DataWriter | DataReader
deriving DecidableEq, Repr

/-- `ObjectKind::as_u8`. -/
def ObjectKind.asU8 : ObjectKind → UInt8
  | .Participant => objParticipant
  | .Topic => objTopic
  | .Publisher => objPublisher
  | .Subscriber => objSubscriber
  | .DataWriter => objDatawriter
  | .DataReader => objDatareader

/-- `ObjectKind::from_u8`. -/
def ObjectKind.fromU8 (v : UInt8) : Except XrceError ObjectKind :=
  if v = objParticipant then .ok .Participant
  else if v = objTopic then .ok .Topic
  else if v = objPublisher then .ok .Publisher
  else if v = objSubscriber then .ok .Subscriber
  else if v = objDatawriter then .ok .DataWriter
  else if v = objDatareader then .ok .DataReader
  else .error (.UnknownObjectKind v)

@[simp] theorem ObjectKind.fromU8_asU8 (k : ObjectKind) : ObjectKind.fromU8 k.asU8 = .ok k := by
  cases k <;> rfl

/-- `StatusCode`. -/
inductive StatusCode
  | Ok | ErrUnknownRef | ErrInvalidData | ErrIncompatible | ErrResources
deriving DecidableEq, Repr

/-- `StatusCode::as_u8`. -/
def StatusCode.asU8 : StatusCode → UInt8
  | .Ok => statusOk
  | .ErrUnknownRef => statusErrUnknownRef
  | .ErrInvalidData => statusErrInvalidData
  | .ErrIncompatible => statusErrIncompatible
  | .ErrResources => statusErrResources

/-- `StatusCode::from_u8`. -/
def StatusCode.fromU8 (v : UInt8) : Except XrceError StatusCode :=
  if v = statusOk then .ok .Ok
  else if v = statusErrUnknownRef then .ok .ErrUnknownRef
  else if v = statusErrInvalidData then .ok .ErrInvalidData
  else if v = statusErrIncompatible then .ok .ErrIncompatible
  else if v = statusErrResources then .ok .ErrResources
  else .error (.UnknownStatusCode v)

@[simp] theorem StatusCode.fromU8_asU8 (c : StatusCode) : StatusCode.fromU8 c.asU8 = .ok c := by
  cases c <;> rfl

/-! ## Headers -/

/-- `MessageHeader`. -/
structure MessageHeader where
  sessionId : UInt8
  streamId : UInt8
  sequenceNr : UInt16
deriving DecidableEq, Repr

/-- `MessageHeader::parse`. -/
def MessageHeader.parse (buf : List UInt8) : Except XrceError MessageHeader :=
  if buf.length < messageHeaderSize then .error .BufferTooShort
  else .ok ⟨buf.getD 0 0, buf.getD 1 0, u16At buf 2⟩

/-- `MessageHeader::to_bytes`. -/
def MessageHeader.toBytes (h : MessageHeader) : List UInt8 :=
  [h.sessionId, h.streamId] ++ u16ToLeBytes h.sequenceNr

/-- `SubmessageHeader`. -/
structure SubmessageHeader where
  submessageId : UInt8
  flags : UInt8
  length : UInt16
deriving DecidableEq, Repr

/-- `SubmessageHeader::parse`. -/
def SubmessageHeader.parse (buf : List UInt8) : Except XrceError SubmessageHeader :=
  if buf.length < submessageHeaderSize then .error .BufferTooShort
  else .ok ⟨buf.getD 0 0, buf.getD 1 0, u16At buf 2⟩

/-- `SubmessageHeader::to_bytes`. -/
def SubmessageHeader.toBytes (h : SubmessageHeader) : List UInt8 :=
  [h.submessageId, h.flags] ++ u16ToLeBytes h.length

@[simp] theorem length_MessageHeader_toBytes (h : MessageHeader) : h.toBytes.length = 4 := rfl

@[simp] theorem length_SubmessageHeader_toBytes (h : SubmessageHeader) : h.toBytes.length = 4 := rfl

theorem MessageHeader.parse_toBytes (h : MessageHeader) (rest : List UInt8) :
    MessageHeader.parse (h.toBytes ++ rest) = .ok h := by
  unfold MessageHeader.parse
  rw [if_neg (by simp [messageHeaderSize])]
  simp [MessageHeader.toBytes, u16At]

theorem SubmessageHeader.parse_toBytes (h : SubmessageHeader) (rest : List UInt8) :
    SubmessageHeader.parse (h.toBytes ++ rest) = .ok h := by
  unfold SubmessageHeader.parse
  rw [if_neg (by simp [submessageHeaderSize])]
  simp [SubmessageHeader.toBytes, u16At]

/-! ## Submessages -/

/-- `CreateClientPayload`. -/
structure CreateClientPayload where
  clientKey : ByteArr 4
  properties : UInt8
deriving DecidableEq, Repr

/-- `CreatePayload`. -/
structure CreatePayload where
  objectId : UInt16
  kind : ObjectKind
  parentId : UInt16
  stringData : List UInt8
deriving DecidableEq, Repr

/-- `DeletePayload`. -/
structure DeletePayload where
  objectId : UInt16
deriving DecidableEq, Repr

/-- `WriteDataPayload`. -/
structure WriteDataPayload where
  writerId : UInt16
  data : List UInt8
deriving DecidableEq, Repr

/-- `ReadDataPayload`. -/
structure ReadDataPayload where
  readerId : UInt16
  maxSamples : UInt16
deriving DecidableEq, Repr

/-- `DataPayload`. -/
structure DataPayload where
  readerId : UInt16
  data : List UInt8
deriving DecidableEq, Repr

/-- `StatusPayload`. -/
structure StatusPayload where
  relatedObjectId : UInt16
  status : StatusCode
deriving DecidableEq, Repr

/-- `HeartbeatPayload`. -/
structure HeartbeatPayload where
  firstUnackedSeq : UInt16
  lastSeq : UInt16
deriving DecidableEq, Repr

/-- `AcknackPayload`. -/
structure AcknackPayload where
  firstUnackedSeq : UInt16
  nackBitmap : UInt16
deriving DecidableEq, Repr

/-- `Submessage`. -/
inductive Submessage
  | CreateClient (p : CreateClientPayload)
  | Create (p : CreatePayload)
  | Delete (p : DeletePayload)
  | WriteData (p : WriteDataPayload)
  | ReadData (p : ReadDataPayload)
  | Data (p : DataPayload)
  | Status (p : StatusPayload)
  | Heartbeat (p : HeartbeatPayload)
  | Acknack (p : AcknackPayload)
deriving DecidableEq, Repr

/-- `XrceMessage`. -/
structure XrceMessage where
  header : MessageHeader
  submessages : List Submessage
deriving DecidableEq, Repr

/-! ## Parsing -/

/-- The `match hdr.submessage_id` of `parse_submessage`: one payload, already cut to the
announced length, read as the submessage its id names. -/
def parseSubmessageBody (submessageId : UInt8) (payload : List UInt8) :
    Except XrceError Submessage :=
  if submessageId = submsgCreateClient then
    if h : payload.length < 5 then .error .PayloadLengthMismatch
    else .ok (.CreateClient ⟨⟨payload.take 4, by simp; omega⟩, payload.getD 4 0⟩)
  else if submessageId = submsgCreate then
    if payload.length < 5 then .error .PayloadLengthMismatch
    else do
      let kind ← ObjectKind.fromU8 (payload.getD 2 0)
      let stringData := if payload.length > 5 then payload.drop 5 else []
      return .Create ⟨u16At payload 0, kind, u16At payload 3, stringData⟩
  else if submessageId = submsgDelete then
    if payload.length < 2 then .error .PayloadLengthMismatch
    else .ok (.Delete ⟨u16At payload 0⟩)
  else if submessageId = submsgWriteData then
    if payload.length < 2 then .error .PayloadLengthMismatch
    else .ok (.WriteData ⟨u16At payload 0, payload.drop 2⟩)
  else if submessageId = submsgReadData then
    if payload.length < 4 then .error .PayloadLengthMismatch
    else .ok (.ReadData ⟨u16At payload 0, u16At payload 2⟩)
  else if submessageId = submsgData then
    if payload.length < 2 then .error .PayloadLengthMismatch
    else .ok (.Data ⟨u16At payload 0, payload.drop 2⟩)
  else if submessageId = submsgStatus then
    if payload.length < 3 then .error .PayloadLengthMismatch
    else do
      let status ← StatusCode.fromU8 (payload.getD 2 0)
      return .Status ⟨u16At payload 0, status⟩
  else if submessageId = submsgHeartbeat then
    if payload.length < 4 then .error .PayloadLengthMismatch
    else .ok (.Heartbeat ⟨u16At payload 0, u16At payload 2⟩)
  else if submessageId = submsgAcknack then
    if payload.length < 4 then .error .PayloadLengthMismatch
    else .ok (.Acknack ⟨u16At payload 0, u16At payload 2⟩)
  else .error (.UnknownSubmessageId submessageId)

/-- `parse_submessage`: the submessage at the front of `buf` and the bytes it takes. -/
def parseSubmessage (buf : List UInt8) : Except XrceError (Submessage × ℕ) := do
  let hdr ← SubmessageHeader.parse buf
  let payloadEnd := submessageHeaderSize + hdr.length.toNat
  if buf.length < payloadEnd then throw .BufferTooShort
  let payload := (buf.take payloadEnd).drop submessageHeaderSize
  let submsg ← parseSubmessageBody hdr.submessageId payload
  return (submsg, payloadEnd)

/-- The `while offset < buf.len()` loop of `parse_message`, over what is left of the buffer. -/
def parseSubmessages : ℕ → List UInt8 → Except XrceError (List Submessage)
  | 0, _ => .ok []
  | _ + 1, [] => .ok []
  | fuel + 1, b :: bs => do
    let (submsg, consumed) ← parseSubmessage (b :: bs)
    let rest ← parseSubmessages fuel ((b :: bs).drop consumed)
    return submsg :: rest

/-- `parse_message`. -/
def parseMessage (buf : List UInt8) : Except XrceError XrceMessage := do
  let header ← MessageHeader.parse buf
  let submessages ← parseSubmessages buf.length (buf.drop messageHeaderSize)
  if submessages.isEmpty then throw .BufferTooShort
  return ⟨header, submessages⟩

/-! ## Serialization -/

/-- The `(id, payload)` pair `serialize_submessage` builds for each variant. -/
def encodeSubmessage : Submessage → UInt8 × List UInt8
  | .CreateClient p => (submsgCreateClient, p.clientKey.bytes ++ [p.properties])
  | .Create p =>
    (submsgCreate, u16ToLeBytes p.objectId ++ [p.kind.asU8] ++ u16ToLeBytes p.parentId ++ p.stringData)
  | .Delete p => (submsgDelete, u16ToLeBytes p.objectId)
  | .WriteData p => (submsgWriteData, u16ToLeBytes p.writerId ++ p.data)
  | .ReadData p => (submsgReadData, u16ToLeBytes p.readerId ++ u16ToLeBytes p.maxSamples)
  | .Data p => (submsgData, u16ToLeBytes p.readerId ++ p.data)
  | .Status p => (submsgStatus, u16ToLeBytes p.relatedObjectId ++ [p.status.asU8])
  | .Heartbeat p => (submsgHeartbeat, u16ToLeBytes p.firstUnackedSeq ++ u16ToLeBytes p.lastSeq)
  | .Acknack p => (submsgAcknack, u16ToLeBytes p.firstUnackedSeq ++ u16ToLeBytes p.nackBitmap)

/-- `serialize_submessage`: flags 0 and the payload length truncated to 16 bits
(`payload.len() as u16`). -/
def serializeSubmessage (submsg : Submessage) : List UInt8 :=
  let (id, payload) := encodeSubmessage submsg
  let hdr : SubmessageHeader := ⟨id, 0, UInt16.ofNat payload.length⟩
  hdr.toBytes ++ payload

/-- `serialize_message`. -/
def serializeMessage (msg : XrceMessage) : List UInt8 :=
  msg.header.toBytes ++ msg.submessages.flatMap serializeSubmessage

/-! ## Strings -/

/-- `read_u16_le`. -/
def readU16Le (buf : List UInt8) (off : ℕ) : Except XrceError UInt16 :=
  if off + 2 > buf.length then .error .BufferTooShort else .ok (u16At buf off)

/-- `encode_string`: a 16-bit length, then the bytes. -/
def encodeString (s : List UInt8) : List UInt8 := u16ToLeBytes (UInt16.ofNat s.length) ++ s

/-- `decode_string`: the string and the bytes it took. -/
def decodeString (buf : List UInt8) : Except XrceError (List UInt8 × ℕ) := do
  let len := (← readU16Le buf 0).toNat
  if buf.length < 2 + len then throw .BufferTooShort
  return (field buf 2 len, 2 + len)

/-! ## What an accepted datagram starts with -/

/-- The session id of an accepted message is the first byte of the datagram. -/
theorem parseMessage_head {buf : List UInt8} {msg : XrceMessage} (h : parseMessage buf = .ok msg) :
    buf.head? = some msg.header.sessionId := by
  obtain ⟨header, hh, h⟩ := Codec.bind_eq_ok h
  obtain ⟨subs, -, h⟩ := Codec.bind_eq_ok h
  have hmsg : msg = ⟨header, subs⟩ := by
    dsimp only at h
    split at h
    · cases h
    · cases h
      rfl
  subst hmsg
  unfold MessageHeader.parse at hh
  split at hh
  · cases hh
  · rename_i hlen
    cases hh
    cases buf with
    | nil => simp [messageHeaderSize] at hlen
    | cons b bs => rfl

/-! ## Round trips -/

theorem length_serializeSubmessage (s : Submessage) :
    (serializeSubmessage s).length = 4 + (encodeSubmessage s).2.length := by
  simp [serializeSubmessage]

theorem parseSubmessageBody_encode (s : Submessage) :
    parseSubmessageBody (encodeSubmessage s).1 (encodeSubmessage s).2 = .ok s := by
  cases s with
  | CreateClient p =>
    simp [parseSubmessageBody, encodeSubmessage, submsgCreateClient, p.clientKey.length_eq]
  | Create p =>
    -- the string data is read back through the `payload.len() > 5` test
    have hdata : (if 0 < p.stringData.length then p.stringData else []) = p.stringData := by
      split
      · rfl
      · rename_i h
        exact (List.eq_nil_of_length_eq_zero (by omega)).symm
    simp [parseSubmessageBody, encodeSubmessage, submsgCreate, submsgCreateClient, u16At, hdata,
      bind, Except.bind, pure, Except.pure]
  | Delete p =>
    simp [parseSubmessageBody, encodeSubmessage, submsgDelete, submsgCreate, submsgCreateClient,
      u16At]
  | WriteData p =>
    simp [parseSubmessageBody, encodeSubmessage, submsgWriteData, submsgDelete, submsgCreate,
      submsgCreateClient, u16At]
  | ReadData p =>
    simp [parseSubmessageBody, encodeSubmessage, submsgReadData, submsgWriteData, submsgDelete,
      submsgCreate, submsgCreateClient, u16At]
  | Data p =>
    simp [parseSubmessageBody, encodeSubmessage, submsgData, submsgReadData, submsgWriteData,
      submsgDelete, submsgCreate, submsgCreateClient, u16At]
  | Status p =>
    simp [parseSubmessageBody, encodeSubmessage, submsgStatus, submsgData, submsgReadData,
      submsgWriteData, submsgDelete, submsgCreate, submsgCreateClient, u16At, bind, Except.bind,
      pure, Except.pure]
  | Heartbeat p =>
    simp [parseSubmessageBody, encodeSubmessage, submsgHeartbeat, submsgStatus, submsgData,
      submsgReadData, submsgWriteData, submsgDelete, submsgCreate, submsgCreateClient, u16At]
  | Acknack p =>
    simp [parseSubmessageBody, encodeSubmessage, submsgAcknack, submsgHeartbeat, submsgStatus,
      submsgData, submsgReadData, submsgWriteData, submsgDelete, submsgCreate,
      submsgCreateClient, u16At]

theorem parseSubmessage_serialize (s : Submessage) (rest : List UInt8)
    (hfits : (encodeSubmessage s).2.length < 2 ^ 16) :
    parseSubmessage (serializeSubmessage s ++ rest) = .ok (s, (serializeSubmessage s).length) := by
  have hlen : (UInt16.ofNat (encodeSubmessage s).2.length).toNat = (encodeSubmessage s).2.length :=
    UInt16.toNat_ofNat_of_lt hfits
  have hhdr := SubmessageHeader.parse_toBytes
    ⟨(encodeSubmessage s).1, 0, UInt16.ofNat (encodeSubmessage s).2.length⟩
    ((encodeSubmessage s).2 ++ rest)
  have hpayload : ((serializeSubmessage s ++ rest).take (4 + (encodeSubmessage s).2.length)).drop 4 =
      (encodeSubmessage s).2 := by
    simp [serializeSubmessage, List.take_append]
  simp only [serializeSubmessage, List.append_assoc] at hhdr hpayload ⊢
  simp only [parseSubmessage, hhdr, bind, Except.bind, hlen, submessageHeaderSize, List.length_append,
    length_SubmessageHeader_toBytes]
  rw [if_neg (by omega), hpayload, parseSubmessageBody_encode]
  rfl

theorem parseSubmessages_serialize (subs : List Submessage)
    (hfits : ∀ s ∈ subs, (encodeSubmessage s).2.length < 2 ^ 16) (fuel : ℕ)
    (hfuel : (subs.flatMap serializeSubmessage).length ≤ fuel) :
    parseSubmessages fuel (subs.flatMap serializeSubmessage) = .ok subs := by
  induction subs generalizing fuel with
  | nil => cases fuel <;> rfl
  | cons s subs ih =>
    have hs := hfits s (by simp)
    have hrest := ih (fun t ht => hfits t (by simp [ht]))
    have hpos := length_serializeSubmessage s
    obtain ⟨fuel, rfl⟩ : ∃ f, fuel = f + 1 :=
      ⟨fuel - 1, by simp only [List.flatMap_cons, List.length_append] at hfuel; omega⟩
    obtain ⟨b, bs, hbs⟩ : ∃ b bs, serializeSubmessage s = b :: bs :=
      List.exists_cons_of_length_pos (by omega)
    have hparse := parseSubmessage_serialize s (subs.flatMap serializeSubmessage) hs
    simp only [List.flatMap_cons, List.length_append] at hfuel
    have hdrop : (b :: (bs ++ subs.flatMap serializeSubmessage)).drop (b :: bs).length =
        subs.flatMap serializeSubmessage := by
      simp
    rw [List.flatMap_cons, hbs, List.cons_append]
    rw [hbs, List.cons_append] at hparse
    simp only [parseSubmessages, hparse, bind, Except.bind, hdrop, hrest fuel (by omega), pure,
      Except.pure]

/-- What `serialize_message` writes, `parse_message` reads back, provided the message has a
submessage and each payload fits the 16-bit length field. -/
theorem parseMessage_serializeMessage (msg : XrceMessage) (hne : msg.submessages ≠ [])
    (hfits : ∀ s ∈ msg.submessages, (encodeSubmessage s).2.length < 2 ^ 16) :
    parseMessage (serializeMessage msg) = .ok msg := by
  have hsubs := parseSubmessages_serialize msg.submessages hfits
    (serializeMessage msg).length (by simp [serializeMessage])
  have hdrop : (serializeMessage msg).drop messageHeaderSize =
      msg.submessages.flatMap serializeSubmessage :=
    List.drop_left' (length_MessageHeader_toBytes msg.header)
  have hempty : msg.submessages.isEmpty = false := by
    cases h : msg.submessages with
    | nil => exact absurd h hne
    | cons _ _ => rfl
  simp only [parseMessage, serializeMessage, MessageHeader.parse_toBytes, bind, Except.bind]
  rw [← serializeMessage, hdrop, hsubs]
  simp [hempty, pure, Except.pure]

theorem decodeString_encodeString (s rest : List UInt8) (hfits : s.length < 2 ^ 16) :
    decodeString (encodeString s ++ rest) = .ok (s, 2 + s.length) := by
  unfold encodeString
  generalize hx : UInt16.ofNat s.length = x
  have hxs : x.toNat = s.length := hx ▸ UInt16.toNat_ofNat_of_lt hfits
  have hlen : (u16ToLeBytes x ++ s ++ rest).length = 2 + s.length + rest.length := by
    simp only [List.length_append, length_u16ToLeBytes]
  have hread : readU16Le (u16ToLeBytes x ++ s ++ rest) 0 = .ok x := by
    unfold readU16Le
    rw [if_neg (by omega)]
    simp [u16At]
  have hfield : field (u16ToLeBytes x ++ s ++ rest) 2 s.length = s := by
    rw [field, List.append_assoc, List.drop_left' (length_u16ToLeBytes x), List.take_left' rfl]
  simp only [decodeString, hread, bind, Except.bind, hxs]
  rw [if_neg (by omega), hfield]
  rfl

end Hdds.Xrce
