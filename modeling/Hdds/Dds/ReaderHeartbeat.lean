import Hdds.Foundations.Machine
import Hdds.Reliability.Reader
import Hdds.Rtps.Builder

/-! # A reliable reader: heartbeat handling and sample delivery

`dds/reader/heartbeat.rs` (`ReaderHeartbeatHandler::on_heartbeat`) and the parts of
`dds/reader/runtime.rs` that touch the reliability state (`DataReader::try_take`, `take`,
`maybe_send_nack`). The handler and the reader share one `NackScheduler`
(`Arc<Mutex<NackScheduler>>`); the reader system is a `Machine` whose events are HEARTBEAT
datagrams and samples taken by the application, and whose outputs are the ACKNACKs sent.

* An ACKNACK of the handler is the tuple of arguments of its `build_acknack_packet` call
  (`AcknackRequest`); `AcknackRequest.packet` is the datagram itself.
* The handler's `last_seen` is advanced from `hb.last_seq` only. `handler_requests_ignore_takes`
  shows that what the handler sends does not depend on the samples the reader received at all.
-/

namespace Hdds.Dds
open Wire Hdds.Rtps Hdds.Reliability
set_option autoImplicit false

/-- `AcknackContext` (the transport is the output channel of the model). -/
structure AcknackContext where
  ourGuidPrefix : GuidPrefix
  readerEntityId : EntityId
deriving DecidableEq, Repr

/-- `ReaderHeartbeatHandler` (the scheduler it shares is kept by `ReliableReader`). -/
structure ReaderHeartbeatHandler where
  heartbeatRx : HeartbeatRx
  lastSeen : ℕ
  acknackCtx : Option AcknackContext
  acknackCount : ℕ
deriving DecidableEq, Repr

/-- The arguments of one `build_acknack_packet` call. -/
structure AcknackRequest where
  ourGuidPrefix : GuidPrefix
  writerGuidPrefix : GuidPrefix
  readerEntityId : EntityId
  writerEntityId : EntityId
  seqBase : ℕ
  missingSeqs : List ℕ
  count : ℕ
deriving DecidableEq, Repr

/-- The ACKNACK datagram sent for a request. -/
def AcknackRequest.packet (req : AcknackRequest) : List UInt8 :=
  buildAcknackPacket req.ourGuidPrefix req.writerGuidPrefix req.readerEntityId req.writerEntityId
    req.seqBase req.missingSeqs req.count

namespace ReaderHeartbeatHandler

/-- `ReaderHeartbeatHandler::new`. -/
def new : ReaderHeartbeatHandler := ⟨HeartbeatRx.new, 0, none, 1⟩

/-- `ReaderHeartbeatHandler::with_acknack_context`. -/
def withAcknackContext (ourGuidPrefix : GuidPrefix) (readerEntityId : EntityId) :
    ReaderHeartbeatHandler :=
  ⟨HeartbeatRx.new, 0, some ⟨ourGuidPrefix, readerEntityId⟩, 1⟩

/-- The decoding step of `on_heartbeat`: the full packet decoder, then the legacy one. -/
def decodeHeartbeat (bytes : List UInt8) : Option HeartbeatMsg :=
  match HeartbeatMsg.decodeFromPacket bytes with
  | some hb => some hb
  | none => HeartbeatMsg.decodeCdr2Le bytes

/-- The ACKNACK `on_heartbeat` sends for `hb`, and the next value of the counter. -/
def acknackFor (h : ReaderHeartbeatHandler) (hb : HeartbeatMsg) (missingSeqs : List ℕ) :
    Option AcknackRequest × ℕ :=
  match h.acknackCtx with
  | none => (none, h.acknackCount)
  | some ctx =>
    let seqBase := if missingSeqs.isEmpty then (hb.lastSeq + 1) % 2 ^ 64
      else missingSeqs.min?.getD hb.firstSeq
    (some ⟨ctx.ourGuidPrefix, hb.writerGuidPrefix, ctx.readerEntityId, hb.writerEntityId,
      seqBase, missingSeqs, h.acknackCount⟩, (h.acknackCount + 1) % 2 ^ 32)

/-- `ReaderHeartbeatHandler::on_heartbeat` on the shared scheduler `sched` at time `now`: the
new handler, the new scheduler and the ACKNACK sent, if any. -/
def onHeartbeat (h : ReaderHeartbeatHandler) (sched : NackScheduler) (now : ℕ)
    (bytes : List UInt8) : ReaderHeartbeatHandler × NackScheduler × Option AcknackRequest :=
  match decodeHeartbeat bytes with
  | none => (h, sched, none)
  | some hb =>
    let (heartbeatRx, gapRanges) := h.heartbeatRx.onHeartbeat hb h.lastSeen
    let missingSeqs := (gapRanges.getD []).flatMap rangeSeqs
    -- every sequence the HEARTBEAT reports missing is fed to the scheduler as received
    let sched := match gapRanges with
      | some ranges => (ranges.flatMap rangeSeqs).foldl (fun s seq => s.onReceive now seq) sched
      | none => sched
    let (ack, acknackCount) := h.acknackFor hb missingSeqs
    (⟨heartbeatRx, max h.lastSeen hb.lastSeq, h.acknackCtx, acknackCount⟩, sched, ack)

end ReaderHeartbeatHandler

/-! ## The reader system -/

/-- What happens to a reliable reader. -/
inductive ReaderEvent
  /-- A HEARTBEAT datagram handed to the handler at time `now`. -/
  | heartbeat (bytes : List UInt8) (now : ℕ)
  /-- `try_take` pops the sample with sequence number `seq`. -/
  | tryTake (seq now : ℕ)
  /-- `take` moves the sample with sequence number `seq` into the sample cache. -/
  | take (seq now : ℕ)
deriving DecidableEq, Repr

/-- An ACKNACK sent by the reader. -/
inductive ReaderOutput
  /-- Sent by the heartbeat handler. -/
  | acknack (req : AcknackRequest)
  /-- Sent by `maybe_send_nack`: `build_acknack_packet_from_ranges (gap_ranges)`. -/
  | acknackRanges (gapRanges : List (ℕ × ℕ))
deriving DecidableEq, Repr

/-- The request of a handler ACKNACK. -/
def ReaderOutput.request? : ReaderOutput → Option AcknackRequest
  | .acknack req => some req
  | .acknackRanges _ => none

/-- Whether an event is a HEARTBEAT. -/
def ReaderEvent.isHeartbeat : ReaderEvent → Bool
  | .heartbeat _ _ => true
  | _ => false

/-- A reliable `DataReader` with its heartbeat handler and shared scheduler; `transport` says
whether the reader has a transport for `maybe_send_nack`. -/
structure ReliableReader where
  handler : ReaderHeartbeatHandler
  nackScheduler : NackScheduler
  transport : Bool
deriving DecidableEq, Repr

namespace ReliableReader

/-- `maybe_send_nack`: flush the scheduler if its window has expired. -/
def maybeSendNack (r : ReliableReader) (now : ℕ) : ReliableReader × List ReaderOutput :=
  if r.transport then
    match r.nackScheduler.tryFlush now with
    | some gapRanges =>
      ({ r with nackScheduler := r.nackScheduler.onNackSent now }, [.acknackRanges gapRanges])
    | none => (r, [])
  else (r, [])

/-- One event. -/
def step (r : ReliableReader) : ReaderEvent → ReliableReader × List ReaderOutput
  | .heartbeat bytes now =>
    let (handler, nackScheduler, ack) := r.handler.onHeartbeat r.nackScheduler now bytes
    ({ r with handler, nackScheduler }, ack.toList.map .acknack)
  | .tryTake seq now =>
    maybeSendNack { r with nackScheduler := r.nackScheduler.onReceive now seq } now
  | .take seq now => ({ r with nackScheduler := r.nackScheduler.onReceive now seq }, [])

theorem maybeSendNack_handler (r : ReliableReader) (now : ℕ) :
    (r.maybeSendNack now).1.handler = r.handler ∧
      ((r.maybeSendNack now).2.filterMap ReaderOutput.request?) = [] := by
  unfold maybeSendNack
  split
  · split <;> simp [ReaderOutput.request?]
  · simp

/-- The requests a step emits, and its handler, depend only on the handler and the event. -/
theorem step_handler_requests (r r' : ReliableReader) (e : ReaderEvent)
    (h : r.handler = r'.handler) :
    (step r e).1.handler = (step r' e).1.handler ∧
      (step r e).2.filterMap ReaderOutput.request? =
        (step r' e).2.filterMap ReaderOutput.request? := by
  cases e with
  | heartbeat bytes now =>
    simp only [step, ReaderHeartbeatHandler.onHeartbeat, h]
    split <;> simp
  | tryTake seq now =>
    obtain ⟨h₁, h₂⟩ :=
      maybeSendNack_handler { r with nackScheduler := r.nackScheduler.onReceive now seq } now
    obtain ⟨h₁', h₂'⟩ :=
      maybeSendNack_handler { r' with nackScheduler := r'.nackScheduler.onReceive now seq } now
    simp only [step]
    rw [h₁, h₁', h₂, h₂']
    exact ⟨h, rfl⟩
  | take seq now => simp [step, h]

theorem step_take_handler (r : ReliableReader) (e : ReaderEvent) (he : e.isHeartbeat = false) :
    (step r e).1.handler = r.handler ∧ (step r e).2.filterMap ReaderOutput.request? = [] := by
  cases e with
  | heartbeat bytes now => simp [ReaderEvent.isHeartbeat] at he
  | tryTake seq now => exact maybeSendNack_handler _ now
  | take seq now => simp [step]

/-- The heartbeat handler's ACKNACKs are a function of the HEARTBEATs alone: removing every
sample the reader took from a run leaves them unchanged. -/
theorem handler_requests_ignore_takes (r r' : ReliableReader) (h : r.handler = r'.handler)
    (events : List ReaderEvent) :
    (Machine.run step r events).2.filterMap ReaderOutput.request? =
      (Machine.run step r' (events.filter ReaderEvent.isHeartbeat)).2.filterMap
        ReaderOutput.request? := by
  induction events generalizing r r' with
  | nil => simp
  | cons e events ih =>
    cases he : e.isHeartbeat with
    | true =>
      obtain ⟨hh, hreq⟩ := step_handler_requests r r' e h
      simp only [List.filter_cons, he, if_true, Machine.run_cons, List.filterMap_append, hreq,
        ih _ _ hh]
    | false =>
      obtain ⟨hh, hreq⟩ := step_take_handler r e he
      simp only [List.filter_cons, he, Machine.run_cons, List.filterMap_append, hreq,
        List.nil_append]
      exact ih _ _ (hh.trans h)

/-- Two HEARTBEATs with a `take` and a `try_take` between them, against the same handler with
the transport off and the takes removed. -/
theorem handler_requests_ignore_takes_interleaved :
    let writer : RtpsEndpointContext := ⟨ByteArr.zero 12, ByteArr.zero 4, ByteArr.zero 4⟩
    let r : ReliableReader :=
      ⟨.withAcknackContext (ByteArr.zero 12) (ByteArr.zero 4), NackScheduler.new, true⟩
    let events := [ReaderEvent.heartbeat (buildHeartbeatPacketWithContext writer 1 5 1) 0,
      .take 1 1, .tryTake 2 2, .heartbeat (buildHeartbeatPacketWithContext writer 1 7 2) 3]
    r.handler = { r with transport := false }.handler ∧
      (Machine.run step r events).2.filterMap ReaderOutput.request? =
        (Machine.run step { r with transport := false }
          (events.filter ReaderEvent.isHeartbeat)).2.filterMap ReaderOutput.request? := by
  intro writer r events
  exact ⟨rfl, handler_requests_ignore_takes r { r with transport := false } rfl events⟩

end ReliableReader

/-- Two HEARTBEATs announcing `1 … 5` and then `1 … 7`, and no sample taken: the second ACKNACK
has `seq_base = 6`, so it acknowledges `1 … 5` to the writer, which never reached the reader. -/
theorem reader_acknowledges_untaken_samples :
    let writer : RtpsEndpointContext := ⟨ByteArr.zero 12, ByteArr.zero 4, ByteArr.zero 4⟩
    let reader : ReliableReader :=
      ⟨.withAcknackContext (ByteArr.zero 12) (ByteArr.zero 4), NackScheduler.new, true⟩
    let events := [ReaderEvent.heartbeat (buildHeartbeatPacketWithContext writer 1 5 1) 0,
      .heartbeat (buildHeartbeatPacketWithContext writer 1 7 2) 0]
    events.all ReaderEvent.isHeartbeat ∧
      (HeartbeatMsg.decodeFromPacket (buildHeartbeatPacketWithContext writer 1 7 2)).map
        HeartbeatMsg.firstSeq = some 1 ∧
      ((Machine.run ReliableReader.step reader events).2.filterMap ReaderOutput.request?).map
        (fun req => (req.seqBase, req.missingSeqs)) = [(1, [1, 2, 3, 4, 5]), (6, [6, 7])] := by
  decide

end Hdds.Dds
