import Hdds.Lowbw.Varint
import Hdds.Lowbw.Reliable

/-! # CONTROL messages of the low-bandwidth transport

`transport/lowbw/control.rs`: the messages of the CONTROL stream, each a type byte and a few
fixed bytes and varints. `Ack` is the reliable sender's `Ack`.

* Encoders return the bytes they write into the caller's buffer of length `bufLen`; every
  encoder checks the buffer against its `encoded_size` in the same way (`encodeChecked`).
* `MapAck` and `MapReq` have the same layout, read by `decodeEpochStream`.
-/

namespace Hdds.Lowbw
open Wire
set_option autoImplicit false

/-- `ControlError`. -/
inductive ControlError
  | bufferTooSmall
  | truncated
  | unknownType (ctrlType : UInt8)
  | varintError
  deriving DecidableEq, Repr

/-! ## `ctrl_type` -/

/-- `ctrl_type::HELLO`. -/
def ctrlHello : UInt8 := 0x01
/-- `ctrl_type::MAP_ADD`. -/
def ctrlMapAdd : UInt8 := 0x02
/-- `ctrl_type::MAP_ACK`. -/
def ctrlMapAck : UInt8 := 0x03
/-- `ctrl_type::MAP_REQ`. -/
def ctrlMapReq : UInt8 := 0x04
/-- `ctrl_type::ACK`. -/
def ctrlAck : UInt8 := 0x05
/-- `ctrl_type::STATE_ACK`. -/
def ctrlStateAck : UInt8 := 0x06
/-- `ctrl_type::KEYFRAME_REQ`. -/
def ctrlKeyframeReq : UInt8 := 0x07

/-- The buffer check every encoder makes before writing `bytes` of `size` bytes. -/
def encodeChecked (size : ℕ) (bytes : List UInt8) (bufLen : ℕ) : Except ControlError (List UInt8) :=
  if bufLen < size then .error .bufferTooSmall else .ok bytes

/-! ## Messages -/

/-- `Hello`. -/
structure Hello where
  protoVer : UInt8
  features : UInt8
  mtu : UInt16
  nodeId : UInt8
  sessionId : UInt16
  mapEpoch : UInt16
  deriving DecidableEq, Repr

/-- `MapAdd`. -/
structure MapAdd where
  epoch : UInt16
  streamId : UInt8
  topicHash : UInt64
  typeHash : UInt64
  streamFlags : UInt8
  deriving DecidableEq, Repr

/-- `MapAck`. -/
structure MapAck where
  epoch : UInt16
  streamId : UInt8
  deriving DecidableEq, Repr

/-- `MapReq`. -/
structure MapReq where
  epoch : UInt16
  streamId : UInt8
  deriving DecidableEq, Repr

/-- `StateAck`. -/
structure StateAck where
  streamId : UInt8
  lastFullSeq : UInt32
  deriving DecidableEq, Repr

/-- `KeyframeReq`. -/
structure KeyframeReq where
  streamId : UInt8
  deriving DecidableEq, Repr

namespace Hello

/-- `Hello::encoded_size`. -/
def encodedSize (m : Hello) : ℕ :=
  1 + 1 + 1 + varintLen m.mtu.toNat + 1 + varintLen m.sessionId.toNat + varintLen m.mapEpoch.toNat

/-- The bytes `Hello::encode` writes. -/
def bytes (m : Hello) : List UInt8 :=
  [ctrlHello, m.protoVer, m.features] ++ encodeVarint m.mtu.toNat ++ [m.nodeId] ++
    encodeVarint m.sessionId.toNat ++ encodeVarint m.mapEpoch.toNat

/-- `Hello::encode`. -/
def encode (m : Hello) (bufLen : ℕ) : Except ControlError (List UInt8) :=
  encodeChecked m.encodedSize m.bytes bufLen

/-- `Hello::decode`, after the type byte. -/
def decode (buf : List UInt8) : Except ControlError (Hello × ℕ) := do
  if buf.length < 3 then throw .truncated
  let protoVer := buf.getD 0 0
  let features := buf.getD 1 0
  let (mtu, mtuLen) ← (decodeVarintU16 (buf.drop 2)).mapError fun _ => .varintError
  let offset := 2 + mtuLen
  if offset ≥ buf.length then throw .truncated
  let nodeId := buf.getD offset 0
  let offset := offset + 1
  let (sessionId, sidLen) ← (decodeVarintU16 (buf.drop offset)).mapError fun _ => .varintError
  let offset := offset + sidLen
  let (mapEpoch, epochLen) ← (decodeVarintU16 (buf.drop offset)).mapError fun _ => .varintError
  let offset := offset + epochLen
  return (⟨protoVer, features, mtu, nodeId, sessionId, mapEpoch⟩, offset)

end Hello

namespace MapAdd

/-- `MapAdd::encoded_size`. -/
def encodedSize (m : MapAdd) : ℕ := 1 + varintLen m.epoch.toNat + 1 + 8 + 8 + 1

/-- The bytes `MapAdd::encode` writes: the hashes little-endian. -/
def bytes (m : MapAdd) : List UInt8 :=
  [ctrlMapAdd] ++ encodeVarint m.epoch.toNat ++ [m.streamId] ++ toLE 8 m.topicHash.toNat ++
    toLE 8 m.typeHash.toNat ++ [m.streamFlags]

/-- `MapAdd::encode`. -/
def encode (m : MapAdd) (bufLen : ℕ) : Except ControlError (List UInt8) :=
  encodeChecked m.encodedSize m.bytes bufLen

/-- `MapAdd::decode`, after the type byte. -/
def decode (buf : List UInt8) : Except ControlError (MapAdd × ℕ) := do
  let (epoch, epochLen) ← (decodeVarintU16 buf).mapError fun _ => .varintError
  let offset := epochLen
  if buf.length < offset + 18 then throw .truncated
  let streamId := buf.getD offset 0
  let topicHash := UInt64.ofNat (ofLE (field buf (offset + 1) 8))
  let typeHash := UInt64.ofNat (ofLE (field buf (offset + 9) 8))
  let streamFlags := buf.getD (offset + 17) 0
  return (⟨epoch, streamId, topicHash, typeHash, streamFlags⟩, offset + 18)

end MapAdd

/-- The layout of `MapAck` and `MapReq` after the type byte: the epoch as a varint and the
stream id. -/
def decodeEpochStream (buf : List UInt8) : Except ControlError (UInt16 × UInt8 × ℕ) := do
  let (epoch, epochLen) ← (decodeVarintU16 buf).mapError fun _ => .varintError
  if buf.length < epochLen + 1 then throw .truncated
  return (epoch, buf.getD epochLen 0, epochLen + 1)

/-- The bytes `MapAck::encode` and `MapReq::encode` write after the type byte. -/
def epochStreamBytes (epoch : UInt16) (streamId : UInt8) : List UInt8 :=
  encodeVarint epoch.toNat ++ [streamId]

namespace MapAck

/-- `MapAck::encoded_size`. -/
def encodedSize (m : MapAck) : ℕ := 1 + varintLen m.epoch.toNat + 1

/-- The bytes `MapAck::encode` writes. -/
def bytes (m : MapAck) : List UInt8 := ctrlMapAck :: epochStreamBytes m.epoch m.streamId

/-- `MapAck::encode`. -/
def encode (m : MapAck) (bufLen : ℕ) : Except ControlError (List UInt8) :=
  encodeChecked m.encodedSize m.bytes bufLen

/-- `MapAck::decode`, after the type byte. -/
def decode (buf : List UInt8) : Except ControlError (MapAck × ℕ) :=
  (decodeEpochStream buf).map fun r => (⟨r.1, r.2.1⟩, r.2.2)

end MapAck

namespace MapReq

/-- `MapReq::encoded_size`. -/
def encodedSize (m : MapReq) : ℕ := 1 + varintLen m.epoch.toNat + 1

/-- The bytes `MapReq::encode` writes. -/
def bytes (m : MapReq) : List UInt8 := ctrlMapReq :: epochStreamBytes m.epoch m.streamId

/-- `MapReq::encode`. -/
def encode (m : MapReq) (bufLen : ℕ) : Except ControlError (List UInt8) :=
  encodeChecked m.encodedSize m.bytes bufLen

/-- `MapReq::decode`, after the type byte. -/
def decode (buf : List UInt8) : Except ControlError (MapReq × ℕ) :=
  (decodeEpochStream buf).map fun r => (⟨r.1, r.2.1⟩, r.2.2)

end MapReq

namespace Ack

/-- `Ack::encoded_size`. -/
def encodedSize (m : Ack) : ℕ := 1 + 1 + varintLen m.lastSeq.toNat + varintLen m.bitmask.toNat

/-- The bytes `Ack::encode` writes. -/
def bytes (m : Ack) : List UInt8 :=
  [ctrlAck, m.streamId] ++ encodeVarint m.lastSeq.toNat ++ encodeVarint m.bitmask.toNat

/-- `Ack::encode`. -/
def encode (m : Ack) (bufLen : ℕ) : Except ControlError (List UInt8) :=
  encodeChecked m.encodedSize m.bytes bufLen

/-- `Ack::decode`, after the type byte: `last_seq` is read as a `u64` and cut to `u32`. -/
def decode (buf : List UInt8) : Except ControlError (Ack × ℕ) := do
  if buf.isEmpty then throw .truncated
  let streamId := buf.getD 0 0
  let (lastSeq, seqLen) ← (decodeVarint (buf.drop 1)).mapError fun _ => .varintError
  let offset := 1 + seqLen
  let (bitmask, bmLen) ← (decodeVarintU16 (buf.drop offset)).mapError fun _ => .varintError
  return (⟨streamId, UInt32.ofNat lastSeq, bitmask⟩, offset + bmLen)

end Ack

namespace StateAck

/-- `StateAck::encoded_size`. -/
def encodedSize (m : StateAck) : ℕ := 1 + 1 + varintLen m.lastFullSeq.toNat

/-- The bytes `StateAck::encode` writes. -/
def bytes (m : StateAck) : List UInt8 := [ctrlStateAck, m.streamId] ++ encodeVarint m.lastFullSeq.toNat

/-- `StateAck::encode`. -/
def encode (m : StateAck) (bufLen : ℕ) : Except ControlError (List UInt8) :=
  encodeChecked m.encodedSize m.bytes bufLen

/-- `StateAck::decode`, after the type byte: `last_full_seq` is read as a `u64` and cut to
`u32`. -/
def decode (buf : List UInt8) : Except ControlError (StateAck × ℕ) := do
  if buf.isEmpty then throw .truncated
  let streamId := buf.getD 0 0
  let (lastFullSeq, seqLen) ← (decodeVarint (buf.drop 1)).mapError fun _ => .varintError
  return (⟨streamId, UInt32.ofNat lastFullSeq⟩, 1 + seqLen)

end StateAck

namespace KeyframeReq

/-- `KeyframeReq::encoded_size`. -/
def encodedSize (_ : KeyframeReq) : ℕ := 2

/-- The bytes `KeyframeReq::encode` writes. -/
def bytes (m : KeyframeReq) : List UInt8 := [ctrlKeyframeReq, m.streamId]

/-- `KeyframeReq::encode`. -/
def encode (m : KeyframeReq) (bufLen : ℕ) : Except ControlError (List UInt8) :=
  encodeChecked m.encodedSize m.bytes bufLen

/-- `KeyframeReq::decode`, after the type byte. -/
def decode (buf : List UInt8) : Except ControlError (KeyframeReq × ℕ) := do
  if buf.isEmpty then throw .truncated
  return (⟨buf.getD 0 0⟩, 1)

end KeyframeReq

/-- `ControlMessage`. -/
inductive ControlMessage
  | hello (m : Hello)
  | mapAdd (m : MapAdd)
  | mapAck (m : MapAck)
  | mapReq (m : MapReq)
  | ack (m : Ack)
  | stateAck (m : StateAck)
  | keyframeReq (m : KeyframeReq)
  deriving DecidableEq, Repr

namespace ControlMessage

/-- The bytes `ControlMessage::encode` writes. -/
def bytes : ControlMessage → List UInt8
  | .hello m => m.bytes
  | .mapAdd m => m.bytes
  | .mapAck m => m.bytes
  | .mapReq m => m.bytes
  | .ack m => m.bytes
  | .stateAck m => m.bytes
  | .keyframeReq m => m.bytes

/-- `ControlMessage::encode`. -/
def encode (msg : ControlMessage) (bufLen : ℕ) : Except ControlError (List UInt8) :=
  match msg with
  | .hello m => m.encode bufLen
  | .mapAdd m => m.encode bufLen
  | .mapAck m => m.encode bufLen
  | .mapReq m => m.encode bufLen
  | .ack m => m.encode bufLen
  | .stateAck m => m.encode bufLen
  | .keyframeReq m => m.encode bufLen

/-- `ControlMessage::decode`: the type byte, then the message of that type. -/
def decode (buf : List UInt8) : Except ControlError (ControlMessage × ℕ) := do
  if buf.isEmpty then throw .truncated
  let ctrlType := buf.getD 0 0
  let payload := buf.drop 1
  if ctrlType = ctrlHello then
    let (m, len) ← Hello.decode payload
    return (.hello m, 1 + len)
  else if ctrlType = ctrlMapAdd then
    let (m, len) ← MapAdd.decode payload
    return (.mapAdd m, 1 + len)
  else if ctrlType = ctrlMapAck then
    let (m, len) ← MapAck.decode payload
    return (.mapAck m, 1 + len)
  else if ctrlType = ctrlMapReq then
    let (m, len) ← MapReq.decode payload
    return (.mapReq m, 1 + len)
  else if ctrlType = ctrlAck then
    let (m, len) ← Ack.decode payload
    return (.ack m, 1 + len)
  else if ctrlType = ctrlStateAck then
    let (m, len) ← StateAck.decode payload
    return (.stateAck m, 1 + len)
  else if ctrlType = ctrlKeyframeReq then
    let (m, len) ← KeyframeReq.decode payload
    return (.keyframeReq m, 1 + len)
  else throw (.unknownType ctrlType)

end ControlMessage

end Hdds.Lowbw
