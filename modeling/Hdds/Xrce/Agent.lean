import Hdds.Xrce.Session
import Hdds.Foundations.Machine

/-! # The XRCE agent

`hdds-xrce/src/agent.rs`: the agent parses each datagram, opens a session on CREATE_CLIENT and
hands every other submessage to the session named by the message header, which creates,
deletes, writes or reads DDS entities through the `ProxyBridge`.

* The bridge is any state machine `β` with the seven operations of the trait; each call
  returns the bridge's next state and its result.
* `process_incoming` is a run of `processSubmessage` over the submessages of one datagram;
  `serve` is a run of `processIncoming` over datagrams, each with its sender and the clock.
* The sender address is read in two places only: `handle_create_client` records it in
  `addr_map`, and every reply is addressed to it. `processIncoming_ignores_sender` proves
  that everything else a datagram does depends on its bytes alone.
* `config` is read only by `new` and by `tick` for the receive buffer size, so it is not a
  field here; `tick` takes what the transport received.
-/

namespace Hdds.Xrce
open Wire
set_option autoImplicit false

/-! ## Configuration -/

/-- `XrceAgentConfig`; the transport's addresses (`udp_port`, `serial_device`, `tcp_port`)
are left out. -/
structure XrceAgentConfig where
  serialBaud : ℕ
  maxClients : ℕ
  sessionTimeoutMs : ℕ
  heartbeatPeriodMs : ℕ
  maxMessageSize : ℕ

/-- `XrceAgentConfig::default`. -/
def XrceAgentConfig.default : XrceAgentConfig := ⟨115200, 128, 30000, 200, 512⟩

/-- `XrceAgentConfig::validate`. -/
def XrceAgentConfig.validate (c : XrceAgentConfig) : Except XrceError Unit :=
  if c.maxClients = 0 then .error (.ConfigError "max_clients must be > 0")
  else if c.maxClients > 255 then .error (.ConfigError "max_clients must be <= 255 (session_id is u8)")
  else if c.sessionTimeoutMs = 0 then .error (.ConfigError "session_timeout_ms must be > 0")
  else if c.heartbeatPeriodMs = 0 then .error (.ConfigError "heartbeat_period_ms must be > 0")
  else if c.maxMessageSize < 16 then .error (.ConfigError "max_message_size must be >= 16")
  else if c.serialBaud = 0 then .error (.ConfigError "serial_baud must be > 0")
  else .ok ()

theorem XrceAgentConfig.validate_default : XrceAgentConfig.default.validate = .ok () := rfl

/-! ## The bridge -/

/-- `ProxyBridge`: the DDS side, as a state machine over `β`. -/
structure ProxyBridge (β : Type) where
  createParticipant : β → UInt16 → β × Except XrceError UInt32
  createTopic : β → UInt32 → List UInt8 → List UInt8 → β × Except XrceError UInt32
  createWriter : β → UInt32 → UInt32 → β × Except XrceError UInt32
  createReader : β → UInt32 → UInt32 → β × Except XrceError UInt32
  writeData : β → UInt32 → List UInt8 → β × Except XrceError Unit
  readData : β → UInt32 → β × Except XrceError (Option (List UInt8))
  deleteEntity : β → UInt32 → β × Except XrceError Unit

/-- `NullBridge`. -/
def nullBridge : ProxyBridge Unit where
  createParticipant _ _ := ((), .ok 1)
  createTopic _ _ _ _ := ((), .ok 2)
  createWriter _ _ _ := ((), .ok 3)
  createReader _ _ _ := ((), .ok 4)
  writeData _ _ _ := ((), .ok ())
  readData _ _ := ((), .ok none)
  deleteEntity _ _ := ((), .ok ())

/-! ## The agent -/

/-- `XrceAgent`, over transport addresses `α` and a bridge state `β`. -/
structure XrceAgent (α β : Type) where
  sessions : SessionTable
  bridge : β
  addrMap : AList (fun _ : α => UInt8)

/-- `make_status_reply`. -/
def makeStatusReply (sessionId streamId : UInt8) (objectId : UInt16) (status : StatusCode) :
    List UInt8 :=
  serializeMessage ⟨⟨sessionId, streamId, 0⟩, [.Status ⟨objectId, status⟩]⟩

/-- `decode_topic_strings`. -/
def decodeTopicStrings (data : List UInt8) : Option (List UInt8 × List UInt8) := do
  let (name, consumed) ← (decodeString data).toOption
  let (typeName, _) ← (decodeString (data.drop consumed)).toOption
  return (name, typeName)

namespace XrceAgent

variable {α β : Type}

/-- `XrceAgent::new`. -/
def new (config : XrceAgentConfig) (bridge : β) : Except XrceError (XrceAgent α β) := do
  config.validate
  return ⟨SessionTable.new config.maxClients config.sessionTimeoutMs, bridge, ∅⟩

/-- `find_bridge_handle`. -/
def findBridgeHandle (ag : XrceAgent α β) (sessionId : UInt8) (objectId : UInt16) : Option UInt32 :=
  ((ag.sessions.get sessionId).bind (·.getObject objectId)).map (·.bridgeHandle)

/-- `find_writer_reader_parents`: the last participant and the last topic met in the
session's objects (`_parent_id` is not read). -/
def findWriterReaderParents (ag : XrceAgent α β) (sessionId : UInt8) (_parentId : UInt16) :
    Option UInt32 × Option UInt32 :=
  match ag.sessions.get sessionId with
  | none => (none, none)
  | some session =>
    session.objects.entries.foldl (fun acc e =>
      match e.2.kind with
      | .Participant => (some e.2.bridgeHandle, acc.2)
      | .Topic => (acc.1, some e.2.bridgeHandle)
      | _ => acc) (none, none)

/-- `handle_create_client`. -/
def handleCreateClient [DecidableEq α] (ag : XrceAgent α β) (from_ : α) (now : ℕ) (_hdr : MessageHeader)
    (payload : CreateClientPayload) : XrceAgent α β × Option (List UInt8) :=
  let (sessions, result) := ag.sessions.createSession now payload.clientKey
  let (ag, sessionId, status) : XrceAgent α β × UInt8 × StatusCode :=
    match result with
    | .ok id => ({ag with sessions, addrMap := ag.addrMap.insert from_ id}, id, .Ok)
    | .error _ => ({ag with sessions}, 0, .ErrResources)
  (ag, some (serializeMessage ⟨⟨sessionId, 0, 0⟩, [.Status ⟨0, status⟩]⟩))

section Handlers

variable (br : ProxyBridge β)

/-- The bridge call `handle_create` makes for each kind of object. -/
def createEntity (ag : XrceAgent α β) (sessionId : UInt8) (payload : CreatePayload) :
    β × Except XrceError UInt32 :=
  match payload.kind with
  | .Participant => br.createParticipant ag.bridge payload.parentId
  | .Topic =>
    let (topicName, typeName) := (decodeTopicStrings payload.stringData).getD ([], [])
    match ag.findBridgeHandle sessionId payload.parentId with
    | some pid => br.createTopic ag.bridge pid topicName typeName
    | none => (ag.bridge, .error (.ObjectNotFound payload.parentId))
  | .Publisher | .Subscriber => (ag.bridge, .ok payload.objectId.toUInt32)
  | .DataWriter =>
    match ag.findWriterReaderParents sessionId payload.parentId with
    | (some p, some t) => br.createWriter ag.bridge p t
    | _ => (ag.bridge, .error (.ObjectNotFound payload.parentId))
  | .DataReader =>
    match ag.findWriterReaderParents sessionId payload.parentId with
    | (some p, some t) => br.createReader ag.bridge p t
    | _ => (ag.bridge, .error (.ObjectNotFound payload.parentId))

/-- `handle_create`. -/
def handleCreate (ag : XrceAgent α β) (sessionId streamId : UInt8) (payload : CreatePayload) :
    XrceAgent α β × Option (List UInt8) :=
  let (bridge, result) := ag.createEntity br sessionId payload
  let ag := {ag with bridge}
  let (ag, status) : XrceAgent α β × StatusCode :=
    match result with
    | .ok handle =>
      ({ag with sessions := ag.sessions.update sessionId (·.addObject ⟨payload.objectId, payload.kind, handle⟩)},
        .Ok)
    | .error _ => (ag, .ErrInvalidData)
  (ag, some (makeStatusReply sessionId streamId payload.objectId status))

/-- `handle_delete`: the object leaves the session whether or not the bridge deletes it. -/
def handleDelete (ag : XrceAgent α β) (sessionId streamId : UInt8) (objectId : UInt16) :
    XrceAgent α β × Option (List UInt8) :=
  let (ag, status) : XrceAgent α β × StatusCode :=
    match ag.sessions.get sessionId with
    | some session =>
      let (session, removed) := session.removeObject objectId
      let ag := {ag with sessions := ag.sessions.put sessionId session}
      match removed with
      | some obj =>
        let (bridge, r) := br.deleteEntity ag.bridge obj.bridgeHandle
        ({ag with bridge}, match r with | .ok () => .Ok | .error _ => .ErrUnknownRef)
      | none => (ag, .ErrUnknownRef)
    | none => (ag, .ErrUnknownRef)
  (ag, some (makeStatusReply sessionId streamId objectId status))

/-- `handle_write_data`. -/
def handleWriteData (ag : XrceAgent α β) (sessionId streamId : UInt8) (payload : WriteDataPayload) :
    XrceAgent α β × Option (List UInt8) :=
  let (bridge, status) : β × StatusCode :=
    match (ag.sessions.get sessionId).bind (·.getObject payload.writerId) with
    | some obj =>
      let (bridge, r) := br.writeData ag.bridge obj.bridgeHandle payload.data
      (bridge, match r with | .ok () => .Ok | .error _ => .ErrInvalidData)
    | none => (ag.bridge, .ErrUnknownRef)
  ({ag with bridge}, some (makeStatusReply sessionId streamId payload.writerId status))

/-- `handle_read_data`: a DATA reply when the bridge has a sample, a status otherwise. -/
def handleReadData (ag : XrceAgent α β) (sessionId streamId : UInt8) (payload : ReadDataPayload) :
    XrceAgent α β × Option (List UInt8) :=
  match ag.findBridgeHandle sessionId payload.readerId with
  | some handle =>
    let (bridge, r) := br.readData ag.bridge handle
    let ag := {ag with bridge}
    match r with
    | .ok (some data) =>
      (ag, some (serializeMessage ⟨⟨sessionId, streamId, 0⟩, [.Data ⟨payload.readerId, data⟩]⟩))
    | .ok none => (ag, some (makeStatusReply sessionId streamId payload.readerId .Ok))
    | .error _ => (ag, some (makeStatusReply sessionId streamId payload.readerId .ErrInvalidData))
  | none => (ag, some (makeStatusReply sessionId streamId payload.readerId .ErrUnknownRef))

end Handlers

/-- `handle_heartbeat`: answer with the ACKNACK of the stream, creating the stream if new. -/
def handleHeartbeat (ag : XrceAgent α β) (sessionId streamId : UInt8) (payload : HeartbeatPayload) :
    XrceAgent α β × Option (List UInt8) :=
  match ag.sessions.get sessionId with
  | some session =>
    let (stream, session) := session.stream streamId
    let acknack := stream.makeAcknack payload.firstUnackedSeq payload.lastSeq
    ({ag with sessions := ag.sessions.put sessionId session},
      some (serializeMessage ⟨⟨sessionId, streamId, 0⟩, [.Acknack acknack]⟩))
  | none => (ag, none)

/-- `handle_acknack`: the retransmissions it computes are dropped (`_retransmit`). -/
def handleAcknack (ag : XrceAgent α β) (sessionId streamId : UInt8) (payload : AcknackPayload) :
    XrceAgent α β :=
  match ag.sessions.get sessionId with
  | some session =>
    let (stream, session) := session.stream streamId
    let (stream, _retransmit) := stream.processAcknack payload
    {ag with sessions := ag.sessions.put sessionId (session.setStream streamId stream)}
  | none => ag

/-- `handle_session_submessage`: the session is the header's; `_from` is not read. -/
def handleSessionSubmessage (br : ProxyBridge β) (ag : XrceAgent α β) (_from : α) (now : ℕ)
    (hdr : MessageHeader) (submsg : Submessage) : XrceAgent α β × Option (List UInt8) :=
  let sessionId := hdr.sessionId
  let streamId := hdr.streamId
  match ag.sessions.get sessionId with
  | none => (ag, none)
  | some session =>
    let ag := {ag with sessions := ag.sessions.put sessionId (session.touch now)}
    match submsg with
    | .Create p => ag.handleCreate br sessionId streamId p
    | .Delete p => ag.handleDelete br sessionId streamId p.objectId
    | .WriteData p => ag.handleWriteData br sessionId streamId p
    | .ReadData p => ag.handleReadData br sessionId streamId p
    | .Heartbeat p => ag.handleHeartbeat sessionId streamId p
    | .Acknack p => (ag.handleAcknack sessionId streamId p, none)
    | _ => (ag, none)

/-- The `match submsg` of `process_incoming`. -/
def dispatch [DecidableEq α] (br : ProxyBridge β) (ag : XrceAgent α β) (from_ : α) (now : ℕ) (hdr : MessageHeader)
    (submsg : Submessage) : XrceAgent α β × Option (List UInt8) :=
  match submsg with
  | .CreateClient p => ag.handleCreateClient from_ now hdr p
  | _ => ag.handleSessionSubmessage br from_ now hdr submsg

/-- One turn of the `for submsg in &msg.submessages` loop of `process_incoming`: the reply,
if any, goes back to the sender. -/
def processSubmessage [DecidableEq α] (br : ProxyBridge β) (from_ : α) (now : ℕ) (hdr : MessageHeader)
    (ag : XrceAgent α β) (submsg : Submessage) : XrceAgent α β × List (α × List UInt8) :=
  let r := ag.dispatch br from_ now hdr submsg
  (r.1, r.2.toList.map (from_, ·))

/-- `process_incoming`: a datagram that does not parse changes nothing. -/
def processIncoming [DecidableEq α] (br : ProxyBridge β) (ag : XrceAgent α β) (from_ : α) (now : ℕ)
    (data : List UInt8) : XrceAgent α β × List (α × List UInt8) :=
  match parseMessage data with
  | .error _ => (ag, [])
  | .ok msg => Machine.run (processSubmessage br from_ now msg.header) ag msg.submessages

/-- `evict_expired`: the timed-out sessions leave the table and `addr_map`. -/
def evictExpired [DecidableEq α] (ag : XrceAgent α β) (now : ℕ) : XrceAgent α β × List UInt8 :=
  let (sessions, expired) := ag.sessions.evictExpired now
  ({ag with sessions, addrMap := ag.addrMap.retain fun _ sid => sid ∉ expired}, expired)

/-- `tick`: process what the transport received (an I/O error is no datagram), send the
replies, then evict timed-out sessions. -/
def tick [DecidableEq α] (br : ProxyBridge β) (ag : XrceAgent α β) (now : ℕ)
    (received : Except XrceError (α × List UInt8)) :
    Except XrceError (XrceAgent α β × List (α × List UInt8)) :=
  let processed : Except XrceError (XrceAgent α β × List (α × List UInt8)) :=
    match received with
    | .ok (from_, data) => .ok (ag.processIncoming br from_ now data)
    | .error (.Io _) => .ok (ag, [])
    | .error e => .error e
  processed.map fun r => ((r.1.evictExpired now).1, r.2)

/-- Datagrams `(from, now, data)` passed to `process_incoming` one after another. -/
def serve [DecidableEq α] (br : ProxyBridge β) (ag : XrceAgent α β) (datagrams : List (α × ℕ × List UInt8)) :
    XrceAgent α β × List (α × List UInt8) :=
  Machine.run (fun ag d => ag.processIncoming br d.1 d.2.1 d.2.2) ag datagrams

/-! ## The sender address does not matter

Every handler but `handle_create_client` reads the agent's sessions and bridge and writes
them back; none reads `addr_map`. So two agents that differ only in `addr_map`, fed the
same bytes from any two senders, stay that way and send the same reply bytes. -/

/-- The same agent with another `addr_map`. -/
def withAddrMap (ag : XrceAgent α β) (m : AList (fun _ : α => UInt8)) : XrceAgent α β :=
  {ag with addrMap := m}

/-- Two agents that differ at most in `addr_map`. -/
def SameCore (ag ag' : XrceAgent α β) : Prop := ag.sessions = ag'.sessions ∧ ag.bridge = ag'.bridge

theorem SameCore.eq_withAddrMap {ag ag' : XrceAgent α β} (h : SameCore ag ag') :
    ag' = ag.withAddrMap ag'.addrMap := by
  obtain ⟨s, b, m⟩ := ag
  obtain ⟨s', b', m'⟩ := ag'
  obtain ⟨rfl, rfl⟩ := h
  rfl

theorem SameCore.refl (ag : XrceAgent α β) : SameCore ag ag := ⟨rfl, rfl⟩

theorem sameCore_withAddrMap (ag : XrceAgent α β) (m : AList (fun _ : α => UInt8)) :
    SameCore ag (ag.withAddrMap m) := ⟨rfl, rfl⟩

section Frame

variable (br : ProxyBridge β) (m : AList (fun _ : α => UInt8))

theorem handleCreate_withAddrMap (ag : XrceAgent α β) (sid st : UInt8) (p : CreatePayload) :
    (ag.withAddrMap m).handleCreate br sid st p =
      ((ag.handleCreate br sid st p).1.withAddrMap m, (ag.handleCreate br sid st p).2) := by
  unfold handleCreate
  rw [show (ag.withAddrMap m).createEntity br sid p = ag.createEntity br sid p from rfl]
  rcases ag.createEntity br sid p with ⟨bridge, result⟩
  cases result <;> rfl

theorem handleDelete_withAddrMap (ag : XrceAgent α β) (sid st : UInt8) (oid : UInt16) :
    (ag.withAddrMap m).handleDelete br sid st oid =
      ((ag.handleDelete br sid st oid).1.withAddrMap m, (ag.handleDelete br sid st oid).2) := by
  obtain ⟨s, b, m0⟩ := ag
  unfold handleDelete
  dsimp only [withAddrMap]
  split
  · split <;> rfl
  · rfl

theorem handleWriteData_withAddrMap (ag : XrceAgent α β) (sid st : UInt8) (p : WriteDataPayload) :
    (ag.withAddrMap m).handleWriteData br sid st p =
      ((ag.handleWriteData br sid st p).1.withAddrMap m, (ag.handleWriteData br sid st p).2) :=
  rfl

theorem handleReadData_withAddrMap (ag : XrceAgent α β) (sid st : UInt8) (p : ReadDataPayload) :
    (ag.withAddrMap m).handleReadData br sid st p =
      ((ag.handleReadData br sid st p).1.withAddrMap m, (ag.handleReadData br sid st p).2) := by
  obtain ⟨s, b, m0⟩ := ag
  unfold handleReadData findBridgeHandle
  dsimp only [withAddrMap]
  split
  · split <;> rfl
  · rfl

theorem handleHeartbeat_withAddrMap (ag : XrceAgent α β) (sid st : UInt8) (p : HeartbeatPayload) :
    (ag.withAddrMap m).handleHeartbeat sid st p =
      ((ag.handleHeartbeat sid st p).1.withAddrMap m, (ag.handleHeartbeat sid st p).2) := by
  obtain ⟨s, b, m0⟩ := ag
  unfold handleHeartbeat
  dsimp only [withAddrMap]
  split <;> rfl

theorem handleAcknack_withAddrMap (ag : XrceAgent α β) (sid st : UInt8) (p : AcknackPayload) :
    (ag.withAddrMap m).handleAcknack sid st p = (ag.handleAcknack sid st p).withAddrMap m := by
  obtain ⟨s, b, m0⟩ := ag
  unfold handleAcknack
  dsimp only [withAddrMap]
  split <;> rfl

theorem handleSessionSubmessage_withAddrMap (ag : XrceAgent α β) (a : α) (now : ℕ)
    (hdr : MessageHeader) (sub : Submessage) :
    (ag.withAddrMap m).handleSessionSubmessage br a now hdr sub =
      ((ag.handleSessionSubmessage br a now hdr sub).1.withAddrMap m,
        (ag.handleSessionSubmessage br a now hdr sub).2) := by
  obtain ⟨s, b, m0⟩ := ag
  unfold handleSessionSubmessage
  dsimp only [withAddrMap]
  split
  · rfl
  · -- the session is touched first; then each submessage goes to its handler
    cases sub with
    | Create p => exact handleCreate_withAddrMap br m ⟨_, b, m0⟩ _ _ p
    | Delete p => exact handleDelete_withAddrMap br m ⟨_, b, m0⟩ _ _ _
    | WriteData p => exact handleWriteData_withAddrMap br m ⟨_, b, m0⟩ _ _ p
    | ReadData p => exact handleReadData_withAddrMap br m ⟨_, b, m0⟩ _ _ p
    | Heartbeat p => exact handleHeartbeat_withAddrMap m ⟨_, b, m0⟩ _ _ p
    | Acknack p => exact congrArg (·, none) (handleAcknack_withAddrMap m ⟨_, b, m0⟩ _ _ p)
    | _ => rfl

/-- `_from` is never read by `handle_session_submessage`. -/
theorem handleSessionSubmessage_from (ag : XrceAgent α β) (a a' : α) (now : ℕ) (hdr : MessageHeader)
    (sub : Submessage) :
    ag.handleSessionSubmessage br a now hdr sub = ag.handleSessionSubmessage br a' now hdr sub := rfl

theorem map_snd_addressed (a : α) (reply : Option (List UInt8)) :
    (reply.toList.map (a, ·)).map Prod.snd = reply.toList := by
  cases reply <;> rfl

end Frame

section Sender

variable [DecidableEq α] (br : ProxyBridge β)

theorem dispatch_of_ne (ag : XrceAgent α β) (a : α) (now : ℕ) (hdr : MessageHeader)
    {sub : Submessage} (hsub : ∀ p, sub ≠ .CreateClient p) :
    ag.dispatch br a now hdr sub = ag.handleSessionSubmessage br a now hdr sub := by
  cases sub with
  | CreateClient p => exact absurd rfl (hsub p)
  | _ => rfl

/-- One submessage: the step relation of the two runs. -/
theorem processSubmessage_sameCore (a a' : α) (now : ℕ) (hdr : MessageHeader)
    {ag ag' : XrceAgent α β} (h : SameCore ag ag') (sub : Submessage) :
    SameCore (processSubmessage br a now hdr ag sub).1 (processSubmessage br a' now hdr ag' sub).1 ∧
      (processSubmessage br a now hdr ag sub).2.map Prod.snd =
        (processSubmessage br a' now hdr ag' sub).2.map Prod.snd := by
  rw [h.eq_withAddrMap]
  simp only [processSubmessage, map_snd_addressed]
  by_cases hc : ∃ p, sub = .CreateClient p
  · -- both agents allocate from the same table; only the recorded address differs
    obtain ⟨p, rfl⟩ := hc
    unfold dispatch handleCreateClient
    dsimp only [withAddrMap]
    rcases ag.sessions.createSession now p.clientKey with ⟨sessions, result⟩
    cases result <;> exact ⟨⟨rfl, rfl⟩, rfl⟩
  · have hsub : ∀ p, sub ≠ .CreateClient p := fun p hp => hc ⟨p, hp⟩
    rw [dispatch_of_ne br _ a' now hdr hsub, dispatch_of_ne br _ a now hdr hsub,
      handleSessionSubmessage_withAddrMap, handleSessionSubmessage_from br ag a' a]
    exact ⟨sameCore_withAddrMap _ _, rfl⟩

/-- One datagram from two senders: the same sessions, bridge and reply bytes. -/
theorem processIncoming_ignores_sender (a a' : α) (now : ℕ) (data : List UInt8)
    {ag ag' : XrceAgent α β} (h : SameCore ag ag') :
    SameCore (ag.processIncoming br a now data).1 (ag'.processIncoming br a' now data).1 ∧
      (ag.processIncoming br a now data).2.map Prod.snd =
        (ag'.processIncoming br a' now data).2.map Prod.snd := by
  unfold processIncoming
  cases parseMessage data with
  | error _ => exact ⟨h, rfl⟩
  | ok msg =>
    refine Machine.run_related _ _ SameCore Eq Prod.snd Prod.snd ?_
      (List.forall₂_same.mpr fun _ _ => rfl) ag ag' h
    rintro s t e e' hst rfl
    exact processSubmessage_sameCore br a a' now msg.header hst e

/-- Runs of datagrams with the same clock readings and bytes, from any senders. -/
theorem serve_ignores_senders (ds ds' : List (α × ℕ × List UInt8))
    (hsame : ds.map Prod.snd = ds'.map Prod.snd) {ag ag' : XrceAgent α β} (h : SameCore ag ag') :
    SameCore (ag.serve br ds).1 (ag'.serve br ds').1 ∧
      (ag.serve br ds).2.map Prod.snd = (ag'.serve br ds').2.map Prod.snd := by
  refine Machine.run_related _ _ SameCore (fun d d' => d.2 = d'.2) Prod.snd Prod.snd ?_
    (Machine.forall₂_of_map_eq Prod.snd hsame) ag ag' h
  rintro s t ⟨a, now, data⟩ ⟨a', now', data'⟩ hst hd
  cases hd
  exact processIncoming_ignores_sender br a a' now data hst

end Sender

/-! ## A datagram reaches the session its header names, and no other -/

section Isolation

variable (br : ProxyBridge β)

theorem agreeOff_handleCreate (ag : XrceAgent α β) (sid st : UInt8) (p : CreatePayload) :
    ag.sessions.AgreeOff (ag.handleCreate br sid st p).1.sessions sid := by
  unfold handleCreate
  rcases ag.createEntity br sid p with ⟨bridge, result⟩
  cases result with
  | ok handle => exact SessionTable.agreeOff_update _ _ _
  | error _ => exact SessionTable.AgreeOff.refl _ _

theorem agreeOff_handleDelete (ag : XrceAgent α β) (sid st : UInt8) (oid : UInt16) :
    ag.sessions.AgreeOff (ag.handleDelete br sid st oid).1.sessions sid := by
  unfold handleDelete
  dsimp only
  split
  · split <;> exact SessionTable.agreeOff_put _ _ _
  · exact SessionTable.AgreeOff.refl _ _

theorem sessions_handleWriteData (ag : XrceAgent α β) (sid st : UInt8) (p : WriteDataPayload) :
    (ag.handleWriteData br sid st p).1.sessions = ag.sessions := rfl

theorem sessions_handleReadData (ag : XrceAgent α β) (sid st : UInt8) (p : ReadDataPayload) :
    (ag.handleReadData br sid st p).1.sessions = ag.sessions := by
  unfold handleReadData
  dsimp only
  split
  · split <;> rfl
  · rfl

theorem agreeOff_handleHeartbeat (ag : XrceAgent α β) (sid st : UInt8) (p : HeartbeatPayload) :
    ag.sessions.AgreeOff (ag.handleHeartbeat sid st p).1.sessions sid := by
  unfold handleHeartbeat
  split
  · exact SessionTable.agreeOff_put _ _ _
  · exact SessionTable.AgreeOff.refl _ _

theorem agreeOff_handleAcknack (ag : XrceAgent α β) (sid st : UInt8) (p : AcknackPayload) :
    ag.sessions.AgreeOff (ag.handleAcknack sid st p).sessions sid := by
  unfold handleAcknack
  split
  · exact SessionTable.agreeOff_put _ _ _
  · exact SessionTable.AgreeOff.refl _ _

/-- A session submessage changes no session but the one its header names. -/
theorem agreeOff_handleSessionSubmessage (ag : XrceAgent α β) (a : α) (now : ℕ)
    (hdr : MessageHeader) (sub : Submessage) :
    ag.sessions.AgreeOff (ag.handleSessionSubmessage br a now hdr sub).1.sessions hdr.sessionId := by
  unfold handleSessionSubmessage
  dsimp only
  cases ag.sessions.get hdr.sessionId with
  | none => exact SessionTable.AgreeOff.refl _ _
  | some session =>
    -- the touch writes the header's session; the handler then writes it again at most
    have htouch := SessionTable.agreeOff_put ag.sessions hdr.sessionId (session.touch now)
    cases sub with
    | Create p => exact htouch.trans (agreeOff_handleCreate br _ _ _ p)
    | Delete p => exact htouch.trans (agreeOff_handleDelete br _ _ _ _)
    | WriteData p =>
      exact htouch.trans (by rw [sessions_handleWriteData]; exact SessionTable.AgreeOff.refl _ _)
    | ReadData p =>
      exact htouch.trans (by rw [sessions_handleReadData]; exact SessionTable.AgreeOff.refl _ _)
    | Heartbeat p => exact htouch.trans (agreeOff_handleHeartbeat _ _ _ p)
    | Acknack p => exact htouch.trans (agreeOff_handleAcknack _ _ _ p)
    | _ => exact htouch

variable [DecidableEq α]

theorem sessions_handleCreateClient (ag : XrceAgent α β) (a : α) (now : ℕ) (hdr : MessageHeader)
    (p : CreateClientPayload) :
    (ag.handleCreateClient a now hdr p).1.sessions = (ag.sessions.createSession now p.clientKey).1 := by
  unfold handleCreateClient
  rcases ag.sessions.createSession now p.clientKey with ⟨sessions, result⟩
  cases result <;> rfl

theorem get_processSubmessage_of_ne (a : α) (now : ℕ) (hdr : MessageHeader)
    (ag : XrceAgent α β) (sub : Submessage) {sid : UInt8} {s : ClientSession}
    (hs : ag.sessions.get sid = some s) (hne : hdr.sessionId ≠ sid) :
    (processSubmessage br a now hdr ag sub).1.sessions.get sid = some s := by
  show (ag.dispatch br a now hdr sub).1.sessions.get sid = some s
  by_cases hc : ∃ p, sub = .CreateClient p
  · -- a new session only ever takes a vacant id
    obtain ⟨p, rfl⟩ := hc
    rw [dispatch, sessions_handleCreateClient]
    exact SessionTable.get_createSession_of_some ag.sessions now p.clientKey hs
  · rw [dispatch_of_ne br ag a now hdr fun p hp => hc ⟨p, hp⟩]
    exact (agreeOff_handleSessionSubmessage br ag a now hdr sub sid (Ne.symm hne)).trans hs

/-- A datagram whose first byte, the header's session id, is not `sid` leaves session `sid`
as it was. -/
theorem get_processIncoming_of_ne (a : α) (now : ℕ) (data : List UInt8) (ag : XrceAgent α β)
    {sid : UInt8} {s : ClientSession} (hs : ag.sessions.get sid = some s)
    (hne : data.head? ≠ some sid) :
    (ag.processIncoming br a now data).1.sessions.get sid = some s := by
  unfold processIncoming
  cases hp : parseMessage data with
  | error _ => exact hs
  | ok msg =>
    have hhdr : msg.header.sessionId ≠ sid := by
      intro heq
      rw [parseMessage_head hp, heq] at hne
      exact hne rfl
    exact Machine.run_invariant _ (fun ag => ag.sessions.get sid = some s)
      (fun ag sub h => get_processSubmessage_of_ne br a now msg.header ag sub h hhdr) ag _ hs

theorem get_serve_of_ne (ds : List (α × ℕ × List UInt8)) (ag : XrceAgent α β) {sid : UInt8}
    {s : ClientSession} (hs : ag.sessions.get sid = some s)
    (hother : ∀ d ∈ ds, d.2.2.head? ≠ some sid) :
    (ag.serve br ds).1.sessions.get sid = some s :=
  Machine.run_invariant_on _ (fun ag => ag.sessions.get sid = some s)
    (fun d => d.2.2.head? ≠ some sid)
    (fun ag d hd h => get_processIncoming_of_ne br d.1 d.2.1 d.2.2 ag h hd) ag ds hother hs

end Isolation

/-! ## The session table stays well formed -/

section WellFormed

variable (br : ProxyBridge β)

theorem wellFormed_new {config : XrceAgentConfig} {bridge : β} {ag : XrceAgent α β}
    (h : (new config bridge : Except XrceError (XrceAgent α β)) = .ok ag) :
    ag.sessions.WellFormed := by
  obtain ⟨u, -, h⟩ := Codec.bind_eq_ok h
  cases h
  exact SessionTable.wellFormed_new _ _

theorem wellFormed_handleCreate {ag : XrceAgent α β} (h : ag.sessions.WellFormed)
    (sid st : UInt8) (p : CreatePayload) : (ag.handleCreate br sid st p).1.sessions.WellFormed := by
  unfold handleCreate
  rcases ag.createEntity br sid p with ⟨bridge, result⟩
  cases result with
  | ok handle => exact h.update sid fun _ => rfl
  | error _ => exact h

theorem wellFormed_handleDelete {ag : XrceAgent α β} (h : ag.sessions.WellFormed)
    (sid st : UInt8) (oid : UInt16) : (ag.handleDelete br sid st oid).1.sessions.WellFormed := by
  unfold handleDelete
  dsimp only
  split
  · rename_i session hget
    split <;> exact h.put hget (ClientSession.sessionId_removeObject session oid)
  · exact h

theorem wellFormed_handleHeartbeat {ag : XrceAgent α β} (h : ag.sessions.WellFormed)
    (sid st : UInt8) (p : HeartbeatPayload) : (ag.handleHeartbeat sid st p).1.sessions.WellFormed := by
  unfold handleHeartbeat
  split
  · rename_i session hget
    exact h.put hget (ClientSession.sessionId_stream session st)
  · exact h

theorem wellFormed_handleAcknack {ag : XrceAgent α β} (h : ag.sessions.WellFormed)
    (sid st : UInt8) (p : AcknackPayload) : (ag.handleAcknack sid st p).sessions.WellFormed := by
  unfold handleAcknack
  split
  · rename_i session hget
    exact h.put hget (by simp)
  · exact h

theorem wellFormed_handleSessionSubmessage {ag : XrceAgent α β} (h : ag.sessions.WellFormed)
    (a : α) (now : ℕ) (hdr : MessageHeader) (sub : Submessage) :
    (ag.handleSessionSubmessage br a now hdr sub).1.sessions.WellFormed := by
  unfold handleSessionSubmessage
  dsimp only
  split
  · exact h
  · rename_i session hget
    have htouch := h.put hget (ClientSession.sessionId_touch session now)
    cases sub with
    | Create p => exact wellFormed_handleCreate br htouch _ _ p
    | Delete p => exact wellFormed_handleDelete br htouch _ _ _
    | WriteData p => exact htouch
    | ReadData p => exact (sessions_handleReadData br _ _ _ p).symm ▸ htouch
    | Heartbeat p => exact wellFormed_handleHeartbeat htouch _ _ p
    | Acknack p => exact wellFormed_handleAcknack htouch _ _ p
    | _ => exact htouch

variable [DecidableEq α]

theorem wellFormed_processSubmessage (a : α) (now : ℕ) (hdr : MessageHeader)
    {ag : XrceAgent α β} (h : ag.sessions.WellFormed) (sub : Submessage) :
    (processSubmessage br a now hdr ag sub).1.sessions.WellFormed := by
  show (ag.dispatch br a now hdr sub).1.sessions.WellFormed
  by_cases hc : ∃ p, sub = .CreateClient p
  · obtain ⟨p, rfl⟩ := hc
    rw [dispatch, sessions_handleCreateClient]
    exact h.createSession now p.clientKey
  · rw [dispatch_of_ne br ag a now hdr fun p hp => hc ⟨p, hp⟩]
    exact wellFormed_handleSessionSubmessage br h a now hdr sub

theorem wellFormed_processIncoming (a : α) (now : ℕ) (data : List UInt8) {ag : XrceAgent α β}
    (h : ag.sessions.WellFormed) : (ag.processIncoming br a now data).1.sessions.WellFormed := by
  unfold processIncoming
  cases parseMessage data with
  | error _ => exact h
  | ok msg =>
    exact Machine.run_invariant _ (fun ag => ag.sessions.WellFormed)
      (fun ag sub hag => wellFormed_processSubmessage br a now msg.header hag sub) ag _ h

theorem wellFormed_tick {ag ag' : XrceAgent α β} (h : ag.sessions.WellFormed) (now : ℕ)
    (received : Except XrceError (α × List UInt8)) {replies : List (α × List UInt8)}
    (htick : ag.tick br now received = .ok (ag', replies)) : ag'.sessions.WellFormed := by
  unfold tick at htick
  -- after the datagram, if any, the eviction runs on a well-formed table
  have hevict : ∀ ag'' : XrceAgent α β, ag''.sessions.WellFormed →
      (ag''.evictExpired now).1.sessions.WellFormed := fun ag'' h'' => h''.evictExpired now
  rcases received with e | ⟨a, data⟩
  · cases e
    case Io msg =>
      simp only [Except.map, Except.ok.injEq, Prod.mk.injEq] at htick
      exact htick.1 ▸ hevict ag h
    all_goals simp [Except.map] at htick
  · simp only [Except.map, Except.ok.injEq, Prod.mk.injEq] at htick
    exact htick.1 ▸ hevict _ (wellFormed_processIncoming br a now data h)

end WellFormed

/-- On every run of the agent from a table it built, the table holds at most `max_clients`
sessions, none under the reserved id 0, each under its own id. -/
theorem serve_keeps_sessions_wellFormed [DecidableEq α] (br : ProxyBridge β) (ag : XrceAgent α β)
    (h : ag.sessions.WellFormed) (ds : List (α × ℕ × List UInt8)) :
    (ag.serve br ds).1.sessions.WellFormed :=
  Machine.run_invariant _ (fun ag => ag.sessions.WellFormed)
    (fun _ d hag => wellFormed_processIncoming br d.1 d.2.1 d.2.2 hag) ag ds h

/-- Datagrams from any senders act on the session table and the bridge exactly as the same
bytes from any other senders would, with the same reply bytes, from every agent state; and a run
of datagrams none of which names session `sid` in its header leaves that session as it was. -/
theorem serve_acts_by_header_session_id [DecidableEq α] (br : ProxyBridge β)
    (ag : XrceAgent α β) :
    (∀ ds ds' : List (α × ℕ × List UInt8), ds.map Prod.snd = ds'.map Prod.snd →
      (ag.serve br ds).1.sessions = (ag.serve br ds').1.sessions ∧
        (ag.serve br ds).1.bridge = (ag.serve br ds').1.bridge ∧
        (ag.serve br ds).2.map Prod.snd = (ag.serve br ds').2.map Prod.snd) ∧
    ∀ (sid : UInt8) (s : ClientSession) (ds : List (α × ℕ × List UInt8)),
      ag.sessions.get sid = some s → (∀ d ∈ ds, d.2.2.head? ≠ some sid) →
        (ag.serve br ds).1.sessions.get sid = some s := by
  refine ⟨fun ds ds' hsame => ?_, fun sid s ds hs hother => get_serve_of_ne br ds ag hs hother⟩
  -- the two runs stay related step by step: only the replies' addresses differ
  obtain ⟨⟨hsessions, hbridge⟩, hreplies⟩ := serve_ignores_senders br ds ds' hsame (SameCore.refl ag)
  exact ⟨hsessions, hbridge, hreplies⟩

/-- Session 1 opened from address 1; address 2 sends a DELETE naming session 2, and the same
bytes are replayed from address 1. -/
theorem serve_acts_by_header_session_id_two_senders :
    let ag := (serve nullBridge (⟨SessionTable.new 128 30000, (), ∅⟩ : XrceAgent ℕ Unit)
      [(1, 0, [0, 0, 0, 0, 0x00, 0, 5, 0, 1, 2, 3, 4, 0])]).1
    let ds : List (ℕ × ℕ × List UInt8) := [(2, 5, [2, 0, 0, 0, 0x02, 0, 2, 0, 1, 0])]
    let ds' : List (ℕ × ℕ × List UInt8) := [(1, 5, [2, 0, 0, 0, 0x02, 0, 2, 0, 1, 0])]
    let s := ClientSession.new 1 ⟨[1, 2, 3, 4], rfl⟩ 0
    (ds.map Prod.snd = ds'.map Prod.snd ∧ ag.sessions.get 1 = some s ∧
      ∀ d ∈ ds, d.2.2.head? ≠ some 1) ∧
    ((ag.serve nullBridge ds).1.sessions = (ag.serve nullBridge ds').1.sessions ∧
      (ag.serve nullBridge ds).1.bridge = (ag.serve nullBridge ds').1.bridge ∧
      (ag.serve nullBridge ds).2.map Prod.snd = (ag.serve nullBridge ds').2.map Prod.snd ∧
      (ag.serve nullBridge ds).1.sessions.get 1 = some s) := by
  intro ag ds ds' s
  have hsame : ds.map Prod.snd = ds'.map Prod.snd := by decide
  have hs : ag.sessions.get 1 = some s := rfl
  have hother : ∀ d ∈ ds, d.2.2.head? ≠ some 1 := by decide
  have h := serve_acts_by_header_session_id nullBridge ag
  exact ⟨⟨hsame, hs, hother⟩, (h.1 ds ds' hsame).1, (h.1 ds ds' hsame).2.1, (h.1 ds ds' hsame).2.2,
    h.2 1 s ds hs hother⟩

/-- A session opened from address 1 loses its participant, and has its inactivity timer reset,
by a DELETE that address 2 sends with session 1 in its header. -/
theorem foreign_sender_deletes_session_object :
    let ag := (serve nullBridge (⟨SessionTable.new 128 30000, (), ∅⟩ : XrceAgent ℕ Unit)
      [(1, 0, [0, 0, 0, 0, 0x00, 0, 5, 0, 1, 2, 3, 4, 0]),
       (1, 1, [1, 0, 0, 0, 0x01, 0, 5, 0, 1, 0, 0x01, 0, 0])]).1
    let ag' := (ag.processIncoming nullBridge 2 5 [1, 0, 0, 0, 0x02, 0, 2, 0, 1, 0]).1
    ag.addrMap.lookup 1 = some 1 ∧ ((ag.sessions.get 1).bind (·.getObject 1)).isSome ∧
      (ag'.sessions.get 1).bind (·.getObject 1) = none ∧
      (ag'.sessions.get 1).map (·.lastActivity) = some 5 := by
  decide

end XrceAgent

end Hdds.Xrce
