import Hdds.Lowbw.Fragment
import Hdds.Lowbw.Scheduler
import Hdds.Lowbw.Control

/-! # The low-bandwidth transport

`transport/lowbw/transport.rs`: `LowBwTransport` with delta encoding and compression
disabled (`delta_enabled` and `compress_enabled` false, as in `LowBwConfig::local_test`), so
that a TX stream is its fragmenter and message counter and an RX stream its reassembler.

* `send` fragments the payload and queues, for each fragment, its encoded `FragHeader`
  followed by its data; `poll_send` drains the scheduler into the link; `poll_recv` feeds what
  the link returns to `process_frame`, which decodes the frame and its records and routes each
  record to the CONTROL handler or the RX pipeline.
* The link is left abstract: `pollSend` returns the frames it sends, and `pollRecv` takes what
  `recv` returned (`none` for `WouldBlock` or `TimedOut`).
* `process_frame` panics where `decode_frame` does; that is the `none` of `processFrame`.
* The session is never driven by the transport, so `session.state() == Established` is a
  flag that `new` clears and nothing sets. Times are explicit, in microseconds.
-/

namespace Hdds.Lowbw
open Wire
set_option autoImplicit false

/-- `STREAM_CONTROL`. -/
def streamControl : UInt8 := 0

/-- `flags::FRAG`. -/
def fragFlag : UInt8 := 0x08

/-- `RecordHeader::is_fragment`. -/
def RecordHeader.isFragment (header : RecordHeader) : Bool := header.flags &&& fragFlag != 0

/-- `LowBwConfig` with delta encoding and compression disabled; `mtu` is the session's. -/
structure LowBwConfig where
  mtu : ℕ
  scheduler : SchedulerConfig
  reliable : ReliableConfig
  reassembler : ReassemblerConfig

/-- `LowBwConfig::local_test`. -/
def LowBwConfig.localTest : LowBwConfig :=
  ⟨1400, ⟨8000000, 65536, 10, 1400, 32, 64, 128⟩, ⟨8, 3⟩, .default⟩

/-- `TxStream`. -/
structure TxStream where
  fragmenter : Fragmenter
  msgSeq : UInt32

/-- `RxStream`. -/
structure RxStream where
  reassembler : Reassembler

/-- The counters of `LowBwStats` that the receive path moves. -/
structure LowBwStats where
  crcErrors : ℕ
  decodeErrors : ℕ
  mappingErrors : ℕ
  fragmentsReassembled : ℕ
  acksSent : ℕ
  deriving DecidableEq, Repr

/-- `TransportError`, the variants the modelled paths raise. -/
inductive TransportError
  | unknownStream (id : UInt8)
  | fragment (e : FragError)
  deriving DecidableEq, Repr

/-- `LowBwTransport`; a `StreamHandle` is its `u8`. -/
structure LowBwTransport where
  config : LowBwConfig
  sessionEstablished : Bool
  scheduler : Scheduler
  reliableSender : ReliableSender
  txStreams : AList (fun _ : UInt8 => TxStream)
  rxStreams : AList (fun _ : UInt8 => RxStream)
  sessionId : UInt16
  frameSeq : UInt32
  stats : LowBwStats

/-- What `poll_recv` returns: a completed message of a stream, if any. -/
abbrev RecvResult := Except TransportError (Option (UInt8 × List UInt8))

/-- The loop of `send` that queues each fragment as its `FragHeader`, encoded into a 32-byte
buffer, followed by its data; a header that does not fit stops the loop. -/
def queueFragments (priority : Priority) : Scheduler → List Fragment → Scheduler × Except TransportError Unit
  | s, [] => (s, .ok ())
  | s, frag :: frags =>
    match frag.header.encode 32 with
    | .error e => (s, .error (.fragment e))
    | .ok headerBytes => queueFragments priority (s.enqueue priority (headerBytes ++ frag.data)).1 frags

namespace LowBwTransport

/-- `LowBwTransport::new` at time `now`. -/
def new (config : LowBwConfig) (now : ℕ) : LowBwTransport :=
  ⟨config, false, Scheduler.new config.scheduler now, ReliableSender.new config.reliable, ∅, ∅, 0, 0,
    ⟨0, 0, 0, 0, 0⟩⟩

/-- `register_tx_stream`: a fragmenter for the session MTU less 20 bytes of overhead. -/
def registerTxStream (t : LowBwTransport) (handle : UInt8) : LowBwTransport :=
  { t with txStreams := t.txStreams.insert handle ⟨Fragmenter.new t.config.mtu 20, 0⟩ }

/-- `register_rx_stream`. -/
def registerRxStream (t : LowBwTransport) (handle : UInt8) : LowBwTransport :=
  { t with rxStreams := t.rxStreams.insert handle ⟨Reassembler.new t.config.reassembler⟩ }

/-- `send`: the message counter moves once the payload is fragmented, before the fragments are
queued. -/
def send (t : LowBwTransport) (handle : UInt8) (data : List UInt8) (priority : Priority) :
    LowBwTransport × Except TransportError Unit :=
  match t.txStreams.lookup handle with
  | none => (t, .error (.unknownStream handle))
  | some stream =>
    match stream.fragmenter.fragment data stream.msgSeq with
    | .error e => (t, .error (.fragment e))
    | .ok fragments =>
      let txStreams := t.txStreams.replace handle { stream with msgSeq := stream.msgSeq + 1 }
      let queued := queueFragments priority t.scheduler fragments
      ({ t with txStreams, scheduler := queued.1 }, queued.2)

/-- `poll_send` at time `now`: the frames the scheduler emits, in order, until it has none.
Every frame takes a record off the queues, which bounds the loop. -/
def pollSend (t : LowBwTransport) (now : ℕ) : LowBwTransport × List (List UInt8) :=
  match _hpoll : t.scheduler.pollFrame now t.sessionId t.frameSeq with
  | (scheduler, frameSeq, none) => ({ t with scheduler, frameSeq }, [])
  | (scheduler, frameSeq, some frame) =>
    let later := pollSend { t with scheduler, frameSeq } now
    (later.1, frame :: later.2)
termination_by t.scheduler.queued
decreasing_by
  have hlt := t.scheduler.queued_pollFrame_lt
    (show (t.scheduler.pollFrame now t.sessionId t.frameSeq).2.2 = some frame by rw [_hpoll])
  rw [_hpoll] at hlt
  exact hlt

/-- `stats.decode_errors += 1`. -/
def countDecodeError (t : LowBwTransport) : LowBwTransport :=
  { t with stats := { t.stats with decodeErrors := t.stats.decodeErrors + 1 } }

/-- `handle_control_record`: only HELLO and ACK change the transport. -/
def handleControlRecord (t : LowBwTransport) (record : DecodedRecord) : LowBwTransport :=
  match ControlMessage.decode record.payload with
  | .error _ => t.countDecodeError
  | .ok (.hello hello, _) => { t with sessionId := hello.sessionId }
  | .ok (.ack ack, _) =>
    { t with reliableSender := t.reliableSender.onAck ack,
             stats := { t.stats with acksSent := t.stats.acksSent + 1 } }
  | .ok _ => t

/-- `process_data_record` at time `now`: a record of an unregistered stream is a mapping
error; a fragment goes through the stream's reassembler; with no decompressor and no delta
decoder the payload is passed on as it is. -/
def processDataRecord (t : LowBwTransport) (now : ℕ) (record : DecodedRecord) :
    LowBwTransport × RecvResult :=
  let handle := record.header.streamId
  match t.rxStreams.lookup handle with
  | none => ({ t with stats := { t.stats with mappingErrors := t.stats.mappingErrors + 1 } }, .ok none)
  | some rx =>
    if record.header.isFragment then
      match Fragment.decode record.payload with
      | .error e => (t.countDecodeError, .error (.fragment e))
      | .ok (frag, _) =>
        let fed := rx.reassembler.onFragment now record.header.streamId frag.header frag.data
        let t := { t with rxStreams := t.rxStreams.replace handle ⟨fed.1⟩ }
        match fed.2 with
        | .ok (some complete) =>
          ({ t with stats := { t.stats with fragmentsReassembled := t.stats.fragmentsReassembled + 1 } },
            .ok (some (handle, complete)))
        | .ok none => (t, .ok none)
        | .error _ => (t.countDecodeError, .ok none)
    else (t, .ok (some (handle, record.payload)))

/-- The loop of `process_frame` over the decoded records: the first completed message is
kept, an error of the RX pipeline ends the loop. -/
def processRecords (now : ℕ) :
    LowBwTransport → Option (UInt8 × List UInt8) → List DecodedRecord → LowBwTransport × RecvResult
  | t, completed, [] => (t, .ok completed)
  | t, completed, record :: records =>
    if record.header.streamId = streamControl then
      processRecords now (t.handleControlRecord record) completed records
    else
      match t.processDataRecord now record with
      | (t, .error e) => (t, .error e)
      | (t, .ok none) => processRecords now t completed records
      | (t, .ok (some message)) => processRecords now t (completed.or (some message)) records

/-- `process_frame` at time `now`; `none` where `decode_frame` panics. -/
def processFrame (t : LowBwTransport) (now : ℕ) (frame : List UInt8) :
    Option (LowBwTransport × RecvResult) :=
  (decodeFrame frame).map fun
    | .error _ => ({ t with stats := { t.stats with crcErrors := t.stats.crcErrors + 1 } }, .ok none)
    | .ok decoded =>
      if t.sessionEstablished && decoded.header.sessionId != t.sessionId then (t, .ok none)
      else
        match decodeRecords decoded.records with
        | .error _ => (t.countDecodeError, .ok none)
        | .ok (records, _) => t.processRecords now none records

/-- `poll_recv` at time `now`, given what the link's `recv` returned: `some` bytes, or `none`
for `WouldBlock` and `TimedOut`. -/
def pollRecv (t : LowBwTransport) (now : ℕ) : Option (List UInt8) → Option (LowBwTransport × RecvResult)
  | some frame => if frame.length > 0 then t.processFrame now frame else some (t, .ok none)
  | none => some (t, .ok none)

/-- One `poll_recv` at a time, as a step of a machine whose events are what the link returns
and whose outputs are the results, `none` for a panic. -/
def recvStep (t : LowBwTransport) (delivery : ℕ × Option (List UInt8)) :
    LowBwTransport × List (Option RecvResult) :=
  match t.pollRecv delivery.1 delivery.2 with
  | some (t', result) => (t', [some result])
  | none => (t, [none])

/-! ## Steps -/

variable (t : LowBwTransport) (now : ℕ)

/-- The transport once its scheduler has been polled, with or without a frame. -/
def afterPoll : LowBwTransport :=
  let polled := t.scheduler.pollFrame now t.sessionId t.frameSeq
  { t with scheduler := polled.1, frameSeq := polled.2.1 }

/-- `poll_send` when the scheduler has a frame: the frame is sent, and the loop goes on. -/
theorem pollSend_of_some {frame : List UInt8}
    (h : (t.scheduler.pollFrame now t.sessionId t.frameSeq).2.2 = some frame) :
    t.pollSend now = (((t.afterPoll now).pollSend now).1, frame :: ((t.afterPoll now).pollSend now).2) := by
  rw [pollSend]
  split <;> simp_all [afterPoll]

/-- `poll_send` when the scheduler has no frame. -/
theorem pollSend_of_none (h : (t.scheduler.pollFrame now t.sessionId t.frameSeq).2.2 = none) :
    t.pollSend now = (t.afterPoll now, []) := by
  rw [pollSend]
  split <;> simp_all [afterPoll]

@[simp] theorem recvStep_none : t.recvStep (now, none) = (t, [some (.ok none)]) := rfl

@[simp] theorem sessionEstablished_countDecodeError :
    t.countDecodeError.sessionEstablished = t.sessionEstablished := rfl

@[simp] theorem decodeErrors_countDecodeError :
    t.countDecodeError.stats.decodeErrors = t.stats.decodeErrors + 1 := rfl

end LowBwTransport

/-! ## The first message of a stream

`send` queues each fragment's `FragHeader` and data as they are, with no record header, but
`process_frame` reads the records region of a frame as records, so the receiver takes the
first byte of the `FragHeader`, the first byte of the group id, for the stream id of a record.
The group id of a message is its stream's message counter, 0 for the first message, and
stream 0 is `STREAM_CONTROL`. -/

section FirstMessage

open LowBwTransport

/-- The frame the sender of `first_message_read_as_control` sends: the records region is the
`FragHeader` `0 0 1 1 1` of the only fragment, and its data `0x42`. -/
theorem processFrame_first_message (t : LowBwTransport) (ht : t.sessionEstablished = false) (now : ℕ) :
    t.pollRecv now (some [0xA5, 1, 1, 10, 0, 0, 0, 0, 1, 1, 1, 0x42, 43, 13]) =
      some (t.countDecodeError, .ok none) := by
  have hframe : decodeFrame [0xA5, 1, 1, 10, 0, 0, 0, 0, 1, 1, 1, 0x42, 43, 13] =
      some (.ok ⟨⟨1, 1, 0, 0⟩, [0, 0, 1, 1, 1, 0x42], 14⟩) := by decide +kernel
  -- the records region reads as one record of stream 0 with payload `[1]`, then a short tail
  have hrecords : decodeRecords [0, 0, 1, 1, 1, 0x42] = .ok ([⟨⟨0, 0, 1⟩, [1], 5⟩], 5) := by decide
  -- `[1]` is a HELLO with no body
  have hcontrol : ControlMessage.decode [1] = .error .truncated := by decide
  simp only [pollRecv, List.length_cons, processFrame, hframe, Option.map_some, ht, Bool.false_and,
    Bool.false_eq_true, if_false, hrecords, processRecords, streamControl, handleControlRecord, hcontrol]
  rfl

/-- Polls that get that frame, or nothing, never complete a message: each frame is a decode
error. -/
theorem run_recvStep_first_message (schedule : List (ℕ × Bool)) (t : LowBwTransport)
    (ht : t.sessionEstablished = false) :
    let run := Machine.run recvStep t (schedule.map fun poll =>
      (poll.1, if poll.2 then some [0xA5, 1, 1, 10, 0, 0, 0, 0, 1, 1, 1, 0x42, 43, 13] else none))
    run.2 = schedule.map (fun _ => some (.ok none)) ∧
      run.1.stats.decodeErrors = t.stats.decodeErrors + (schedule.filter Prod.snd).length := by
  induction schedule generalizing t with
  | nil => simp
  | cons poll schedule ih =>
    obtain ⟨now, delivered⟩ := poll
    cases delivered with
    | false =>
      obtain ⟨hout, herr⟩ := ih t ht
      simp only [List.map_cons, if_false, Bool.false_eq_true, Machine.run_cons, recvStep_none,
        List.filter_cons_of_neg (by simp : ¬ (now, false).2 = true)]
      exact ⟨by rw [hout]; rfl, herr⟩
    | true =>
      have hstep : t.recvStep (now, some [0xA5, 1, 1, 10, 0, 0, 0, 0, 1, 1, 1, 0x42, 43, 13]) =
          (t.countDecodeError, [some (.ok none)]) := by
        simp only [recvStep, processFrame_first_message t ht now]
      obtain ⟨hout, herr⟩ := ih t.countDecodeError (by simpa using ht)
      simp only [List.map_cons, if_true, Machine.run_cons, hstep,
        List.filter_cons_of_pos (by simp : (now, true).2 = true)]
      refine ⟨by rw [hout]; rfl, ?_⟩
      rw [herr, decodeErrors_countDecodeError, List.length_cons]
      omega

theorem first_message_read_as_control :
    (let sender := (LowBwTransport.new LowBwConfig.localTest 0).registerTxStream 1
    let receiver := (LowBwTransport.new LowBwConfig.localTest 0).registerRxStream 1
    let sent := sender.send 1 [0x42] .p0
    let polled := sent.1.pollSend 0
    sent.2 = .ok () ∧ polled.1.scheduler.queued = 0 ∧ polled.2.length = 1 ∧
    ∀ schedule : List (ℕ × Bool),
      let run := Machine.run recvStep receiver
        (schedule.map fun poll => (poll.1, if poll.2 then polled.2.head? else none))
      run.2 = schedule.map (fun _ => some (.ok none)) ∧
        run.1.stats.decodeErrors = (schedule.filter Prod.snd).length) := by
  intro sender receiver sent polled
  have hsent : sent.2 = .ok () := by decide +kernel
  -- `poll_send` builds one frame, then finds the queues empty
  have hfirst : (sent.1.scheduler.pollFrame 0 sent.1.sessionId sent.1.frameSeq).2.2 =
      some [0xA5, 1, 1, 10, 0, 0, 0, 0, 1, 1, 1, 0x42, 43, 13] := by decide +kernel
  have hlast : ((sent.1.afterPoll 0).scheduler.pollFrame 0 (sent.1.afterPoll 0).sessionId
      (sent.1.afterPoll 0).frameSeq).2.2 = none := by decide +kernel
  have hpolled : polled = ((sent.1.afterPoll 0).afterPoll 0,
      [[0xA5, 1, 1, 10, 0, 0, 0, 0, 1, 1, 1, 0x42, 43, 13]]) := by
    rw [show polled = sent.1.pollSend 0 from rfl, pollSend_of_some _ _ hfirst, pollSend_of_none _ _ hlast]
  have hempty : ((sent.1.afterPoll 0).afterPoll 0).scheduler.queued = 0 := by decide +kernel
  refine ⟨hsent, by rw [hpolled]; exact hempty, by rw [hpolled]; rfl, fun schedule => ?_⟩
  have hrun := run_recvStep_first_message schedule receiver rfl
  rw [show receiver.stats.decodeErrors = 0 from rfl, Nat.zero_add] at hrun
  rw [hpolled]
  simpa using hrun

end FirstMessage

end Hdds.Lowbw
