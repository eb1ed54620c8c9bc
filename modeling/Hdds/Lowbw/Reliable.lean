import Mathlib
import Hdds.Foundations.Assoc

/-! # Reliable delivery on the low-bandwidth transport

`transport/lowbw/reliable.rs`: a sender that numbers the messages of each stream, keeps them
in flight until a cumulative ACK covers them and retransmits on timeout, and a receiver that
delivers each stream in order and acknowledges the last sequence number it delivered.

* Hash maps are association lists; `poll_send` scans `in_flight` in the list's order.
* The clock is abstracted: whether `elapsed >= timeout` holds for a message is the argument
  `due` of `pollSend`, so `timeout_ms` and the send times are left out.
* Statistics are left out: no modelled function reads them.

`Link` joins one sender and one receiver by two channels that may drop, duplicate and reorder:
the data channel is every message `poll_send` ever produced, of which the receiver may be
handed any, any number of times, and likewise for the ACK channel. Ghost logs record what was
sent, delivered and released by `on_ack`. `Link.Sound` is the run invariant; from it, on every
run with fewer than `2^31` messages per stream, each stream's deliveries are a contiguous run
of what was sent on it, and every message `on_ack` releases was either delivered or precedes
everything the receiver delivered on its stream: the receiver takes the first message it
sees on a stream as its starting point, so a stream's first messages can be released
without ever being delivered (`first_message_released_undelivered`).
-/

namespace Hdds.Lowbw
set_option autoImplicit false

/-! ## Sequence numbers -/

/-- `seq_le` of the sender and the receiver: `a ≤ b` in 32-bit serial arithmetic. -/
def seqLe (a b : UInt32) : Bool := b - a < 0x80000000

theorem seqLe_iff {a b : UInt32} (ha : a.toNat < 2 ^ 31) (hb : b.toNat < 2 ^ 31) :
    seqLe a b = true ↔ a.toNat ≤ b.toNat := by
  simp only [seqLe, decide_eq_true_eq, UInt32.lt_iff_toNat_lt, UInt32.toNat_sub]
  have hlt : (0x80000000 : UInt32).toNat = 2 ^ 31 := rfl
  rw [hlt]
  constructor
  · intro h
    by_contra hc
    have hge : 2 ^ 32 - a.toNat + b.toNat ≥ 2 ^ 31 := by omega
    have hmod : (2 ^ 32 - a.toNat + b.toNat) % 2 ^ 32 = 2 ^ 32 - a.toNat + b.toNat := by
      apply Nat.mod_eq_of_lt
      omega
    omega
  · intro h
    omega

theorem toNat_add_one {a : UInt32} (ha : a.toNat < 2 ^ 31) : (a + 1).toNat = a.toNat + 1 := by
  rw [UInt32.toNat_add, UInt32.toNat_one]
  omega

/-! ## Sender -/

/-- `ReliableConfig`. -/
structure ReliableConfig where
  windowSize : ℕ
  maxRetries : ℕ

/-- `ReliableConfig::default`. -/
def ReliableConfig.default : ReliableConfig := ⟨2, 5⟩

/-- `InFlight`. -/
structure InFlight where
  seq : UInt32
  streamId : UInt8
  data : List UInt8
  retries : ℕ
deriving DecidableEq, Repr

/-- `TransmitMessage`. -/
structure TransmitMessage where
  seq : UInt32
  streamId : UInt8
  data : List UInt8
  isRetransmit : Bool
deriving DecidableEq, Repr

/-- `Ack` of `control.rs`. -/
structure Ack where
  streamId : UInt8
  lastSeq : UInt32
  bitmask : UInt16
deriving DecidableEq, Repr

/-- `ReliableSender`. -/
structure ReliableSender where
  config : ReliableConfig
  inFlight : AList (fun _ : UInt8 => List InFlight)
  nextSeq : AList (fun _ : UInt8 => UInt32)
  pending : List InFlight

namespace ReliableSender

/-- `ReliableSender::new`. -/
def new (config : ReliableConfig) : ReliableSender := ⟨config, ∅, ∅, []⟩

end ReliableSender

/-- `window_used`. -/
def windowUsed (inFlight : AList (fun _ : UInt8 => List InFlight)) (streamId : UInt8) : ℕ :=
  ((inFlight.lookup streamId).map List.length).getD 0

/-- `in_flight.entry(msg.stream_id).or_default().push_back(msg)`. -/
def pushBack (inFlight : AList (fun _ : UInt8 => List InFlight)) (msg : InFlight) :
    AList (fun _ : UInt8 => List InFlight) :=
  inFlight.insert msg.streamId ((inFlight.lookup msg.streamId).getD [] ++ [msg])

/-- The loop of `promote_pending`: move pending messages in flight, in order, until the first
whose stream has a full window. -/
def promote (windowSize : ℕ) :
    AList (fun _ : UInt8 => List InFlight) → List InFlight →
      AList (fun _ : UInt8 => List InFlight) × List InFlight
  | inFlight, [] => (inFlight, [])
  | inFlight, msg :: rest =>
    if windowUsed inFlight msg.streamId < windowSize then
      promote windowSize (pushBack inFlight msg) rest
    else (inFlight, msg :: rest)

/-- The scan of one stream's queue in `poll_send`: the first message that is new or whose
timeout elapsed (`due`), and has retries left, is sent and counted. -/
def pollQueue (maxRetries : ℕ) (due : InFlight → Bool) :
    List InFlight → Option (List InFlight × TransmitMessage)
  | [] => none
  | msg :: rest =>
    if (msg.retries = 0 ∨ due msg = true) ∧ msg.retries < maxRetries then
      some ({ msg with retries := msg.retries + 1 } :: rest,
        ⟨msg.seq, msg.streamId, msg.data, 0 < msg.retries⟩)
    else (pollQueue maxRetries due rest).map fun r => (msg :: r.1, r.2)

/-- The scan of `poll_send` over the streams in flight. -/
def pollStreams (maxRetries : ℕ) (due : InFlight → Bool) :
    List (Σ _ : UInt8, List InFlight) → Option (UInt8 × List InFlight × TransmitMessage)
  | [] => none
  | e :: rest =>
    match pollQueue maxRetries due e.2 with
    | some r => some (e.1, r)
    | none => pollStreams maxRetries due rest

namespace ReliableSender

/-- `ReliableSender::send`: number the message on its stream and put it in flight, or behind
the pending messages when the stream's window is full. -/
def send (s : ReliableSender) (data : List UInt8) (streamId : UInt8) : ReliableSender × UInt32 :=
  let seq := (s.nextSeq.lookup streamId).getD 0
  let nextSeq := s.nextSeq.insert streamId (seq + 1)
  let msg : InFlight := ⟨seq, streamId, data, 0⟩
  if windowUsed s.inFlight streamId < s.config.windowSize then
    ({ s with nextSeq, inFlight := pushBack s.inFlight msg }, seq)
  else ({ s with nextSeq, pending := s.pending ++ [msg] }, seq)

/-- `ReliableSender::promote_pending`. -/
def promotePending (s : ReliableSender) : ReliableSender :=
  let r := promote s.config.windowSize s.inFlight s.pending
  { s with inFlight := r.1, pending := r.2 }

/-- `ReliableSender::poll_send`. -/
def pollSend (s : ReliableSender) (due : InFlight → Bool) :
    ReliableSender × Option TransmitMessage :=
  let s := s.promotePending
  match pollStreams s.config.maxRetries due s.inFlight.entries with
  | some (streamId, queue, msg) => ({ s with inFlight := s.inFlight.replace streamId queue }, some msg)
  | none => (s, none)

/-- `ReliableSender::on_ack`: drop the front of the stream's queue up to `last_seq`, then
promote pending messages. -/
def onAck (s : ReliableSender) (ack : Ack) : ReliableSender :=
  let inFlight :=
    match s.inFlight.lookup ack.streamId with
    | some queue =>
      s.inFlight.replace ack.streamId (queue.dropWhile fun m => seqLe m.seq ack.lastSeq)
    | none => s.inFlight
  { s with inFlight }.promotePending

/-- The messages `on_ack` pops off the stream's queue. -/
def acked (s : ReliableSender) (ack : Ack) : List InFlight :=
  ((s.inFlight.lookup ack.streamId).getD []).takeWhile fun m => seqLe m.seq ack.lastSeq

/-- `ReliableSender::tick`: drop the messages that used up their retries. -/
def tick (s : ReliableSender) : ReliableSender :=
  { s with
    inFlight :=
      ⟨s.inFlight.entries.map fun e => ⟨e.1, e.2.filter fun m => m.retries < s.config.maxRetries⟩,
        by simpa [List.NodupKeys, List.keys, Function.comp_def] using s.inFlight.nodupKeys⟩ }

end ReliableSender

/-! ## Receiver -/

/-- `ReceiverStreamState`. -/
structure ReceiverStreamState where
  lastDelivered : Option UInt32

/-- `ReliableReceiver`. -/
structure ReliableReceiver where
  streams : AList (fun _ : UInt8 => ReceiverStreamState)

namespace ReliableReceiver

/-- `ReliableReceiver::new`. -/
def new : ReliableReceiver := ⟨∅⟩

/-- `ReliableReceiver::last_delivered`. -/
def lastDelivered (r : ReliableReceiver) (streamId : UInt8) : Option UInt32 :=
  (r.streams.lookup streamId).bind (·.lastDelivered)

/-- `ReliableReceiver::on_receive`. The first message of a stream is delivered whatever its
sequence number; after that only the successor of the last delivered one. Duplicates and
messages after a gap are both dropped; they differ only in the statistics. -/
def onReceive (r : ReliableReceiver) (streamId : UInt8) (seq : UInt32) (data : List UInt8) :
    ReliableReceiver × Option (List UInt8) :=
  let deliver : ReliableReceiver × Option (List UInt8) :=
    (⟨r.streams.insert streamId ⟨some seq⟩⟩, some data)
  match r.lastDelivered streamId with
  | none => deliver
  | some last => if seq = last + 1 then deliver else (r, none)

/-- `ReliableReceiver::create_ack`. -/
def createAck (r : ReliableReceiver) (streamId : UInt8) : Option Ack :=
  (r.lastDelivered streamId).map fun lastSeq => ⟨streamId, lastSeq, 0⟩

end ReliableReceiver

/-! ## The sender holds only what was sent -/

/-- A message as both ends see it: its stream, sequence number and bytes. -/
structure Msg where
  streamId : UInt8
  seq : UInt32
  data : List UInt8
deriving DecidableEq, Repr

/-- The message an `InFlight` entry carries. -/
def InFlight.msg (m : InFlight) : Msg := ⟨m.streamId, m.seq, m.data⟩

/-- The message a `TransmitMessage` carries. -/
def TransmitMessage.msg (t : TransmitMessage) : Msg := ⟨t.streamId, t.seq, t.data⟩

/-- The messages of one stream, in order. -/
def onStream (streamId : UInt8) (l : List Msg) : List Msg := l.filter (·.streamId = streamId)

/-- A queue of stream `a` holds only messages of `a`, each of them sent. -/
def QueueOf (sent : List Msg) (a : UInt8) (queue : List InFlight) : Prop :=
  ∀ x ∈ queue.map InFlight.msg, x.streamId = a ∧ x ∈ sent

/-- Every queue in flight is a queue of its own stream. -/
def Queued (sent : List Msg) (inFlight : AList (fun _ : UInt8 => List InFlight)) : Prop :=
  ∀ e ∈ inFlight.entries, QueueOf sent e.1 e.2

/-- The sender holds only messages that were sent, each queued under its own stream. -/
structure Carries (sent : List Msg) (s : ReliableSender) : Prop where
  queued : Queued sent s.inFlight
  pending : ∀ m ∈ s.pending, m.msg ∈ sent

section Carries

variable {sent : List Msg}

theorem Queued.lookup {q : AList (fun _ : UInt8 => List InFlight)} {a : UInt8}
    {queue : List InFlight} (hq : Queued sent q) (h : q.lookup a = some queue) :
    QueueOf sent a queue :=
  hq ⟨a, queue⟩ (AList.mem_lookup_iff.mp h)

theorem Queued.getD {q : AList (fun _ : UInt8 => List InFlight)} {a : UInt8} (hq : Queued sent q) :
    QueueOf sent a ((q.lookup a).getD []) := by
  cases h : q.lookup a with
  | none => simp [QueueOf]
  | some queue => exact hq.lookup h

theorem QueueOf.append {a : UInt8} {l l' : List InFlight} (hl : QueueOf sent a l)
    (hl' : QueueOf sent a l') : QueueOf sent a (l ++ l') := by
  intro x hx
  rw [List.map_append, List.mem_append] at hx
  exact hx.elim (hl x) (hl' x)

theorem QueueOf.sublist {a : UInt8} {l l' : List InFlight} (hl : QueueOf sent a l)
    (hsub : l'.Sublist l) : QueueOf sent a l' :=
  fun x hx => hl x ((hsub.map _).subset hx)

theorem Queued.pushBack {q : AList (fun _ : UInt8 => List InFlight)} {msg : InFlight}
    (hq : Queued sent q) (hm : msg.msg ∈ sent) : Queued sent (pushBack q msg) := by
  intro e he
  rcases AList.mem_entries_insert he with rfl | he
  · refine hq.getD.append ?_
    intro x hx
    rw [List.map_singleton, List.mem_singleton] at hx
    exact ⟨by rw [hx]; rfl, hx ▸ hm⟩
  · exact hq e he

theorem Queued.replace {q : AList (fun _ : UInt8 => List InFlight)} {a : UInt8}
    {queue : List InFlight} (hq : Queued sent q) (hqueue : QueueOf sent a queue) :
    Queued sent (q.replace a queue) := by
  intro e he
  rcases AList.mem_entries_replace he with rfl | he
  · exact hqueue
  · exact hq e he

theorem Queued.promote (windowSize : ℕ) {pending : List InFlight} :
    ∀ {q : AList (fun _ : UInt8 => List InFlight)}, Queued sent q →
      (∀ m ∈ pending, m.msg ∈ sent) →
      Queued sent (promote windowSize q pending).1 ∧
        ∀ m ∈ (promote windowSize q pending).2, m.msg ∈ sent := by
  induction pending with
  | nil => exact fun hq _ => ⟨hq, by simp [Lowbw.promote]⟩
  | cons msg rest ih =>
    intro q hq hp
    rw [Lowbw.promote]
    split
    · exact ih (hq.pushBack (hp msg List.mem_cons_self)) fun m hm => hp m (List.mem_cons_of_mem _ hm)
    · exact ⟨hq, hp⟩

theorem Carries.promotePending {s : ReliableSender} (h : Carries sent s) :
    Carries sent s.promotePending :=
  let r := Queued.promote s.config.windowSize h.queued h.pending
  ⟨r.1, r.2⟩

theorem Carries.mono {sent' : List Msg} {s : ReliableSender} (h : Carries sent s)
    (hsub : sent ⊆ sent') : Carries sent' s where
  queued e he x hx := (h.queued e he x hx).imp_right fun hs => hsub hs
  pending m hm := hsub (h.pending m hm)

/-- What `pollQueue` sends is a message of the queue, and the queue keeps its messages. -/
theorem pollQueue_msg {maxRetries : ℕ} {due : InFlight → Bool} :
    ∀ {queue queue' : List InFlight} {t : TransmitMessage},
      pollQueue maxRetries due queue = some (queue', t) →
      queue'.map InFlight.msg = queue.map InFlight.msg ∧ t.msg ∈ queue.map InFlight.msg
  | [], _, _, h => by simp [pollQueue] at h
  | msg :: rest, queue', t, h => by
    rw [pollQueue] at h
    split at h
    · simp only [Option.some.injEq, Prod.mk.injEq] at h
      obtain ⟨rfl, rfl⟩ := h
      simp [InFlight.msg, TransmitMessage.msg]
    · obtain ⟨r, hr, hrq⟩ := Option.map_eq_some_iff.mp h
      simp only [Prod.mk.injEq] at hrq
      obtain ⟨rfl, rfl⟩ := hrq
      obtain ⟨hmap, ht⟩ := pollQueue_msg hr
      simp only [List.map_cons, hmap, true_and]
      exact List.mem_cons_of_mem _ ht

theorem pollStreams_queue {maxRetries : ℕ} {due : InFlight → Bool} :
    ∀ {es : List (Σ _ : UInt8, List InFlight)} {a : UInt8} {queue' : List InFlight}
      {t : TransmitMessage}, pollStreams maxRetries due es = some (a, queue', t) →
      ∃ queue, (⟨a, queue⟩ : Σ _ : UInt8, List InFlight) ∈ es ∧
        pollQueue maxRetries due queue = some (queue', t)
  | [], _, _, _, h => by simp [pollStreams] at h
  | e :: rest, a, queue', t, h => by
    rw [pollStreams] at h
    split at h
    · rename_i r hr
      simp only [Option.some.injEq, Prod.mk.injEq] at h
      obtain ⟨rfl, rfl⟩ := h
      exact ⟨e.2, List.mem_cons_self, hr⟩
    · obtain ⟨queue, hmem, hq⟩ := pollStreams_queue h
      exact ⟨queue, List.mem_cons_of_mem _ hmem, hq⟩

theorem Carries.pollSend {s : ReliableSender} (h : Carries sent s) (due : InFlight → Bool) :
    Carries sent (s.pollSend due).1 ∧ ∀ t ∈ (s.pollSend due).2, t.msg ∈ sent := by
  have hp := h.promotePending
  dsimp only [ReliableSender.pollSend]
  split
  · rename_i a queue' t hpoll
    obtain ⟨queue, hmem, hq⟩ := pollStreams_queue hpoll
    obtain ⟨hmap, ht⟩ := pollQueue_msg hq
    have hqueue : QueueOf sent a queue := hp.queued _ hmem
    refine ⟨⟨hp.queued.replace ?_, hp.pending⟩, ?_⟩
    · intro x hx
      exact hqueue x (hmap ▸ hx)
    · intro t' ht'
      rw [Option.mem_def, Option.some.injEq] at ht'
      exact ht' ▸ (hqueue _ ht).2
  · exact ⟨hp, by simp⟩

theorem Carries.onAck {s : ReliableSender} (h : Carries sent s) (ack : Ack) :
    Carries sent (s.onAck ack) := by
  unfold ReliableSender.onAck
  apply Carries.promotePending
  refine ⟨?_, h.pending⟩
  split
  · rename_i queue hl
    exact h.queued.replace ((h.queued.lookup hl).sublist (List.dropWhile_sublist _))
  · exact h.queued

/-- `on_ack` releases messages of the acknowledged stream, sent, up to `last_seq`. -/
theorem Carries.acked {s : ReliableSender} (h : Carries sent s) (ack : Ack) :
    ∀ m ∈ s.acked ack, m.streamId = ack.streamId ∧ m.msg ∈ sent ∧ seqLe m.seq ack.lastSeq = true := by
  intro m hm
  have hle : seqLe m.seq ack.lastSeq = true := List.all_eq_true.mp List.all_takeWhile m hm
  have hq := h.queued.getD (a := ack.streamId) m.msg
    (List.mem_map_of_mem ((List.takeWhile_sublist _).subset hm))
  exact ⟨hq.1, hq.2, hle⟩

theorem Carries.tick {s : ReliableSender} (h : Carries sent s) : Carries sent s.tick := by
  refine ⟨?_, h.pending⟩
  intro e he
  obtain ⟨e', he', rfl⟩ := List.mem_map.mp he
  exact (h.queued e' he').sublist List.filter_sublist

/-- `send` returns the stream's next sequence number and puts the message in flight or behind
the pending ones. -/
theorem send_cases (s : ReliableSender) (data : List UInt8) (streamId : UInt8) :
    (s.send data streamId).2 = (s.nextSeq.lookup streamId).getD 0 ∧
      ((s.send data streamId).1 =
          { s with
            nextSeq := s.nextSeq.insert streamId ((s.nextSeq.lookup streamId).getD 0 + 1)
            inFlight := pushBack s.inFlight ⟨(s.nextSeq.lookup streamId).getD 0, streamId, data, 0⟩ } ∨
        (s.send data streamId).1 =
          { s with
            nextSeq := s.nextSeq.insert streamId ((s.nextSeq.lookup streamId).getD 0 + 1)
            pending := s.pending ++ [⟨(s.nextSeq.lookup streamId).getD 0, streamId, data, 0⟩] }) := by
  dsimp only [ReliableSender.send]
  split
  · exact ⟨rfl, .inl rfl⟩
  · exact ⟨rfl, .inr rfl⟩

theorem Carries.send {s : ReliableSender} (h : Carries sent s) (data : List UInt8)
    (streamId : UInt8) :
    Carries (sent ++ [⟨streamId, (s.send data streamId).2, data⟩]) (s.send data streamId).1 := by
  obtain ⟨hseq, hcases⟩ := send_cases s data streamId
  have h' := h.mono (List.subset_append_left sent [⟨streamId, (s.send data streamId).2, data⟩])
  have hnew : (⟨streamId, (s.nextSeq.lookup streamId).getD 0, data⟩ : Msg) ∈
      sent ++ [⟨streamId, (s.send data streamId).2, data⟩] := by simp [hseq]
  rcases hcases with hs | hs <;> rw [hs]
  · exact ⟨h'.queued.pushBack hnew, h'.pending⟩
  · refine ⟨h'.queued, ?_⟩
    intro m hm
    rcases List.mem_append.mp hm with hm | hm
    · exact h'.pending m hm
    · rw [List.mem_singleton.mp hm]
      exact hnew

end Carries

/-! ## The receiver's view of a stream -/

namespace ReliableReceiver

theorem lastDelivered_insert (r : ReliableReceiver) (a b : UInt8) (seq : UInt32) :
    lastDelivered ⟨r.streams.insert a ⟨some seq⟩⟩ b = if b = a then some seq else r.lastDelivered b := by
  unfold lastDelivered
  split_ifs with hb
  · subst hb
    simp [AList.lookup_insert]
  · dsimp only
    rw [AList.lookup_insert_ne hb]

/-- What `on_receive` can do: deliver the first message of a stream, deliver the successor of
the last delivered one, or drop the message and change nothing. -/
theorem onReceive_cases (r : ReliableReceiver) (streamId : UInt8) (seq : UInt32)
    (data : List UInt8) :
    (r.lastDelivered streamId = none ∧
        r.onReceive streamId seq data = (⟨r.streams.insert streamId ⟨some seq⟩⟩, some data)) ∨
      (∃ last, r.lastDelivered streamId = some last ∧ seq = last + 1 ∧
        r.onReceive streamId seq data = (⟨r.streams.insert streamId ⟨some seq⟩⟩, some data)) ∨
      (∃ last, r.lastDelivered streamId = some last ∧ seq ≠ last + 1 ∧
        r.onReceive streamId seq data = (r, none)) := by
  dsimp only [onReceive]
  split
  · rename_i hnone
    exact .inl ⟨hnone, rfl⟩
  · rename_i last hlast
    split_ifs with hseq
    · exact .inr (.inl ⟨last, hlast, hseq, rfl⟩)
    · exact .inr (.inr ⟨last, hlast, hseq, rfl⟩)

end ReliableReceiver

@[simp] theorem onStream_append (streamId : UInt8) (l l' : List Msg) :
    onStream streamId (l ++ l') = onStream streamId l ++ onStream streamId l' :=
  List.filter_append l l'

@[simp] theorem onStream_singleton (streamId : UInt8) (m : Msg) :
    onStream streamId [m] = if m.streamId = streamId then [m] else [] := by
  by_cases h : m.streamId = streamId <;> simp [onStream, h]

theorem mem_onStream {streamId : UInt8} {m : Msg} {l : List Msg} :
    m ∈ onStream streamId l ↔ m ∈ l ∧ m.streamId = streamId := by
  simp [onStream]

/-- The messages of one stream numbered `0, 1, 2, …` in order, at most `2^31` of them. -/
structure Numbered (l : List Msg) : Prop where
  length_le : l.length ≤ 2 ^ 31
  seq_eq : ∀ i (h : i < l.length), l[i].seq.toNat = i

section Numbered

variable {l : List Msg}

theorem Numbered.nil : Numbered [] := ⟨by simp, fun i h => absurd h (by simp)⟩

theorem Numbered.append {m : Msg} (h : Numbered l) (hlt : l.length < 2 ^ 31)
    (hm : m.seq.toNat = l.length) : Numbered (l ++ [m]) where
  length_le := by
    rw [List.length_append, List.length_singleton]
    omega
  seq_eq i hi := by
    rw [List.getElem_append]
    split
    · exact h.seq_eq i ‹_›
    · rw [List.length_append, List.length_singleton] at hi
      simp only [List.getElem_singleton]
      omega

/-- A message of a numbered stream sits at the index its sequence number names. -/
theorem Numbered.getElem_seq {m : Msg} (h : Numbered l) (hm : m ∈ l) :
    ∃ hlt : m.seq.toNat < l.length, l[m.seq.toNat] = m := by
  obtain ⟨i, hi, rfl⟩ := List.mem_iff_getElem.mp hm
  have hseq := h.seq_eq i hi
  simp only [hseq]
  exact ⟨hi, trivial⟩

theorem Numbered.seq_lt {m : Msg} (h : Numbered l) (hm : m ∈ l) : m.seq.toNat < 2 ^ 31 := by
  obtain ⟨hlt, -⟩ := h.getElem_seq hm
  exact Nat.lt_of_lt_of_le hlt h.length_le

/-- The messages numbered `b` to `n - 1`. -/
theorem Numbered.mem_window {d : Msg} {b n : ℕ} (h : Numbered l) :
    d ∈ (l.take n).drop b ↔ d ∈ l ∧ b ≤ d.seq.toNat ∧ d.seq.toNat < n := by
  constructor
  · intro hd
    obtain ⟨j, hj, rfl⟩ := List.mem_iff_getElem.mp hd
    simp only [List.length_drop, List.length_take] at hj
    simp only [List.getElem_drop, List.getElem_take]
    refine ⟨List.getElem_mem _, ?_⟩
    rw [h.seq_eq]
    omega
  · rintro ⟨hd, hb, hn⟩
    obtain ⟨hlt, hget⟩ := h.getElem_seq hd
    refine List.mem_iff_getElem.mpr ⟨d.seq.toNat - b, ?_, ?_⟩
    · simp only [List.length_drop, List.length_take]
      omega
    · simp only [List.getElem_drop, List.getElem_take]
      have hidx : b + (d.seq.toNat - b) = d.seq.toNat := by omega
      simp only [hidx, hget]

end Numbered

/-- The receiver's view of one stream: nothing delivered before its first message, and after
it the sent messages from a starting point `b` up to the last delivered one. -/
def Tracks (sent delivered : List Msg) : Option UInt32 → Prop
  | none => delivered = []
  | some last =>
    last.toNat < sent.length ∧ ∃ b ≤ last.toNat, delivered = (sent.take (last.toNat + 1)).drop b

section Tracks

variable {sent delivered : List Msg}

theorem Tracks.delivered_isInfix {o : Option UInt32} (h : Tracks sent delivered o) : delivered <:+: sent := by
  cases o with
  | none =>
    rw [show delivered = [] from h]
    exact List.nil_infix
  | some last =>
    obtain ⟨-, b, -, rfl⟩ := h
    exact (List.drop_suffix b _).isInfix.trans (List.take_prefix _ sent).isInfix

theorem Tracks.append_sent {o : Option UInt32} (h : Tracks sent delivered o) (more : List Msg) :
    Tracks (sent ++ more) delivered o := by
  cases o with
  | none => exact h
  | some last =>
    obtain ⟨hlast, b, hb, rfl⟩ := h
    refine ⟨by rw [List.length_append]; omega, b, hb, ?_⟩
    rw [List.take_append_of_le_length (by omega)]

theorem Tracks.first {m : Msg} (hnum : Numbered sent) (hm : m ∈ sent) (h : Tracks sent delivered none) :
    Tracks sent (delivered ++ [m]) (some m.seq) := by
  obtain ⟨hlt, hget⟩ := hnum.getElem_seq hm
  refine ⟨hlt, m.seq.toNat, le_rfl, ?_⟩
  rw [show delivered = [] from h, List.take_add_one, List.getElem?_eq_getElem hlt, hget,
    List.drop_append_of_le_length (by simp; omega)]
  simp

theorem Tracks.next {m : Msg} {last : UInt32} (hnum : Numbered sent) (hm : m ∈ sent)
    (h : Tracks sent delivered (some last)) (hseq : m.seq = last + 1) :
    Tracks sent (delivered ++ [m]) (some m.seq) := by
  obtain ⟨hlast, b, hb, rfl⟩ := h
  obtain ⟨hlt, hget⟩ := hnum.getElem_seq hm
  have hnext : m.seq.toNat = last.toNat + 1 := by
    rw [hseq, toNat_add_one (Nat.lt_of_lt_of_le hlast hnum.length_le)]
  have htake : sent.take (last.toNat + 1 + 1) = sent.take (last.toNat + 1) ++ [m] := by
    rw [List.take_add_one, List.getElem?_eq_getElem (hnext ▸ hlt), Option.toList_some]
    simp only [← hnext, hget]
  refine ⟨hlt, b, by omega, ?_⟩
  rw [hnext, htake, List.drop_append_of_le_length (by simp; omega)]

/-- A sent message up to the last delivered one was delivered, or comes before everything
delivered on its stream. -/
theorem Tracks.delivered_or_before {x : Msg} {last : UInt32} (hnum : Numbered sent)
    (h : Tracks sent delivered (some last)) (hx : x ∈ sent) (hle : x.seq.toNat ≤ last.toNat) :
    x ∈ delivered ∨ ∀ d ∈ delivered, x.seq.toNat < d.seq.toNat := by
  obtain ⟨-, b, -, rfl⟩ := h
  by_cases hb : b ≤ x.seq.toNat
  · exact .inl (hnum.mem_window.mpr ⟨hx, hb, by omega⟩)
  · right
    intro d hd
    have := (hnum.mem_window.mp hd).2.1
    omega

end Tracks

/-! ## The link -/

/-- One sender and one receiver joined by a data channel and an ACK channel that may drop,
duplicate and reorder: `wire` and `acks` hold everything ever put on them, and any of it may be
handed over, any number of times. `sent`, `delivered` and `released` are ghost logs of what
`send` numbered, what `on_receive` delivered and what `on_ack` popped. -/
structure Link where
  sender : ReliableSender
  receiver : ReliableReceiver
  wire : List TransmitMessage
  acks : List Ack
  sent : List Msg
  delivered : List Msg
  released : List Msg

/-- What can happen next on a link: a `send`, a `poll_send` (with `due` telling whose timeout
elapsed), the data channel handing over its `i`-th message, a `create_ack`, the ACK channel
handing over its `i`-th ACK, or a `tick`. -/
inductive LinkOp
  | send (data : List UInt8) (streamId : UInt8)
  | poll (due : InFlight → Bool)
  | deliver (i : ℕ)
  | ack (streamId : UInt8)
  | recvAck (i : ℕ)
  | tick

/-- The bytes an operation sends on a stream. -/
def LinkOp.sentOn (streamId : UInt8) : LinkOp → Option (List UInt8)
  | .send data s => if s = streamId then some data else none
  | _ => none

/-- Everything sent on a stream, in order. -/
def sends (streamId : UInt8) (ops : List LinkOp) : List (List UInt8) :=
  ops.filterMap (LinkOp.sentOn streamId)

namespace Link

/-- A fresh sender and receiver with nothing on the channels. -/
def init (config : ReliableConfig) : Link :=
  ⟨ReliableSender.new config, ReliableReceiver.new, [], [], [], [], []⟩

def step (w : Link) : LinkOp → Link
  | .send data streamId =>
    let r := w.sender.send data streamId
    { w with sender := r.1, sent := w.sent ++ [⟨streamId, r.2, data⟩] }
  | .poll due =>
    let r := w.sender.pollSend due
    { w with sender := r.1, wire := w.wire ++ r.2.toList }
  | .deliver i =>
    match w.wire[i]? with
    | some t =>
      let r := w.receiver.onReceive t.streamId t.seq t.data
      { w with
        receiver := r.1
        delivered := w.delivered ++ (r.2.map fun data => ⟨t.streamId, t.seq, data⟩).toList }
    | none => w
  | .ack streamId => { w with acks := w.acks ++ (w.receiver.createAck streamId).toList }
  | .recvAck i =>
    match w.acks[i]? with
    | some ack =>
      { w with
        sender := w.sender.onAck ack
        released := w.released ++ (w.sender.acked ack).map InFlight.msg }
    | none => w
  | .tick => { w with sender := w.sender.tick }

end Link

/-- A run of a link. -/
def runLink (w : Link) (ops : List LinkOp) : Link := ops.foldl Link.step w

/-! ## The run invariant -/

namespace ReliableSender

theorem promotePending_nextSeq (s : ReliableSender) : s.promotePending.nextSeq = s.nextSeq := rfl

theorem pollSend_nextSeq (s : ReliableSender) (due : InFlight → Bool) :
    (s.pollSend due).1.nextSeq = s.nextSeq := by
  dsimp only [pollSend]
  split <;> rfl

theorem onAck_nextSeq (s : ReliableSender) (ack : Ack) : (s.onAck ack).nextSeq = s.nextSeq := rfl

theorem tick_nextSeq (s : ReliableSender) : s.tick.nextSeq = s.nextSeq := rfl

theorem send_nextSeq (s : ReliableSender) (data : List UInt8) (streamId : UInt8) :
    (s.send data streamId).1.nextSeq =
      s.nextSeq.insert streamId ((s.nextSeq.lookup streamId).getD 0 + 1) := by
  rcases (send_cases s data streamId).2 with hs | hs <;> rw [hs]

end ReliableSender

/-- The run invariant of a link. Each stream's sent messages are numbered from 0 and the
sender's counter is their number; the sender and the data channel hold only sent messages;
the receiver tracks each stream; every ACK, and every released message, is at or before the
receiver's last delivered message of its stream, and a released message was delivered or
comes before all deliveries of its stream. -/
structure Link.Sound (w : Link) : Prop where
  numbered : ∀ st, Numbered (onStream st w.sent)
  nextSeq : ∀ st, (w.sender.nextSeq.lookup st).getD 0 = UInt32.ofNat (onStream st w.sent).length
  carries : Carries w.sent w.sender
  wire : ∀ t ∈ w.wire, t.msg ∈ w.sent
  tracks : ∀ st, Tracks (onStream st w.sent) (onStream st w.delivered) (w.receiver.lastDelivered st)
  acks : ∀ a ∈ w.acks, ∃ last, w.receiver.lastDelivered a.streamId = some last ∧
    a.lastSeq.toNat ≤ last.toNat
  released : ∀ m ∈ w.released, ∃ last, w.receiver.lastDelivered m.streamId = some last ∧
    m.seq.toNat ≤ last.toNat ∧
    (m ∈ w.delivered ∨ ∀ d ∈ onStream m.streamId w.delivered, m.seq.toNat < d.seq.toNat)

namespace Link.Sound

variable {w : Link}

theorem init (config : ReliableConfig) : (Link.init config).Sound where
  numbered _ := by simpa [Link.init, onStream] using Numbered.nil
  nextSeq _ := by simp [Link.init, ReliableSender.new, onStream]
  carries := ⟨fun e he => by simp [Link.init, ReliableSender.new] at he, fun m hm => by
    simp [Link.init, ReliableSender.new] at hm⟩
  wire _ ht := by simp [Link.init] at ht
  tracks _ := by
    simp [Link.init, Tracks, onStream, ReliableReceiver.new, ReliableReceiver.lastDelivered]
  acks _ ha := by simp [Link.init] at ha
  released _ hm := by simp [Link.init] at hm

/-- A step that only changes the sender, keeping its counters, and puts sent messages on the
data channel keeps the invariant. -/
theorem with_sender (h : w.Sound) {s : ReliableSender} (hc : Carries w.sent s)
    (hn : s.nextSeq = w.sender.nextSeq) (more : List TransmitMessage)
    (hmore : ∀ t ∈ more, t.msg ∈ w.sent) : ({ w with sender := s, wire := w.wire ++ more }).Sound where
  numbered := h.numbered
  nextSeq st := by rw [hn]; exact h.nextSeq st
  carries := hc
  wire t ht := (List.mem_append.mp ht).elim (h.wire t) (hmore t)
  tracks := h.tracks
  acks := h.acks
  released := h.released

theorem send (h : w.Sound) (data : List UInt8) (st : UInt8)
    (hlt : (onStream st w.sent).length < 2 ^ 31) : (w.step (.send data st)).Sound := by
  have hseq : (w.sender.send data st).2 = UInt32.ofNat (onStream st w.sent).length := by
    rw [(send_cases w.sender data st).1, h.nextSeq st]
  have hmseq : (UInt32.ofNat (onStream st w.sent).length).toNat = (onStream st w.sent).length := by
    rw [UInt32.toNat_ofNat']
    omega
  refine ⟨?_, ?_, h.carries.send data st, ?_, ?_, h.acks, h.released⟩
  · intro st'
    simp only [Link.step, onStream_append, onStream_singleton]
    split_ifs with hst
    · subst hst
      exact (h.numbered _).append hlt (by rw [hseq]; exact hmseq)
    · rw [List.append_nil]
      exact h.numbered st'
  · intro st'
    simp only [Link.step, ReliableSender.send_nextSeq, onStream_append, onStream_singleton]
    by_cases hst : st = st'
    · subst hst
      simp only [AList.lookup_insert, Option.getD_some, if_true, List.length_append,
        List.length_singleton, h.nextSeq st]
      simp [UInt32.ofNat_add]
    · rw [AList.lookup_insert_ne (Ne.symm hst), if_neg hst, List.append_nil]
      exact h.nextSeq st'
  · intro t ht
    exact List.mem_append_left _ (h.wire t ht)
  · intro st'
    simp only [Link.step, onStream_append]
    exact (h.tracks st').append_sent _

theorem poll (h : w.Sound) (due : InFlight → Bool) : (w.step (.poll due)).Sound :=
  h.with_sender (h.carries.pollSend due).1 (ReliableSender.pollSend_nextSeq _ _) _
    fun t ht => (h.carries.pollSend due).2 t (Option.mem_toList.mp ht)

theorem tick (h : w.Sound) : (w.step .tick).Sound := by
  have h' := h.with_sender h.carries.tick (ReliableSender.tick_nextSeq _) [] (by simp)
  rw [List.append_nil] at h'
  exact h'

theorem ack (h : w.Sound) (st : UInt8) : (w.step (.ack st)).Sound where
  numbered := h.numbered
  nextSeq := h.nextSeq
  carries := h.carries
  wire := h.wire
  tracks := h.tracks
  acks a ha := by
    rcases List.mem_append.mp ha with ha | ha
    · exact h.acks a ha
    · simp only [ReliableReceiver.createAck, Option.mem_toList, Option.map_eq_some_iff] at ha
      obtain ⟨last, hlast, rfl⟩ := ha
      exact ⟨last, hlast, le_rfl⟩
  released := h.released

/-- The receiver accepting `t` keeps the invariant when it moves its last delivered sequence
number of the stream forward to `t.seq` and the stream's deliveries stay tracked. -/
theorem accept (h : w.Sound) {t : TransmitMessage}
    (htr : Tracks (onStream t.streamId w.sent) (onStream t.streamId w.delivered ++ [t.msg])
      (some t.seq))
    (hgrow : ∀ last, w.receiver.lastDelivered t.streamId = some last → last.toNat < t.seq.toNat) :
    ({ w with
      receiver := ⟨w.receiver.streams.insert t.streamId ⟨some t.seq⟩⟩
      delivered := w.delivered ++ [t.msg] }).Sound where
  numbered := h.numbered
  nextSeq := h.nextSeq
  carries := h.carries
  wire := h.wire
  tracks st := by
    simp only [ReliableReceiver.lastDelivered_insert, onStream_append, onStream_singleton]
    by_cases hst : st = t.streamId
    · subst hst
      simpa [TransmitMessage.msg] using htr
    · have hne : ¬t.msg.streamId = st := fun he => hst he.symm
      rw [if_neg hst, if_neg hne, List.append_nil]
      exact h.tracks st
  acks a ha := by
    obtain ⟨last, hlast, hle⟩ := h.acks a ha
    simp only [ReliableReceiver.lastDelivered_insert]
    split_ifs with hst
    · have := hgrow last (hst ▸ hlast)
      exact ⟨t.seq, rfl, by omega⟩
    · exact ⟨last, hlast, hle⟩
  released m hm := by
    obtain ⟨last, hlast, hle, hor⟩ := h.released m hm
    simp only [ReliableReceiver.lastDelivered_insert, onStream_append, onStream_singleton]
    by_cases hst : m.streamId = t.streamId
    · have hlt := hgrow last (hst ▸ hlast)
      rw [if_pos hst, if_pos (show t.msg.streamId = m.streamId from hst.symm)]
      refine ⟨t.seq, rfl, by omega, ?_⟩
      rcases hor with hd | hbefore
      · exact .inl (List.mem_append_left _ hd)
      · right
        intro d hd
        rcases List.mem_append.mp hd with hd | hd
        · exact hbefore d hd
        · rw [List.mem_singleton.mp hd]
          exact Nat.lt_of_le_of_lt hle hlt
    · have hne : ¬t.msg.streamId = m.streamId := fun he => hst he.symm
      rw [if_neg hst, if_neg hne, List.append_nil]
      exact ⟨last, hlast, hle, hor.imp_left (List.mem_append_left _)⟩

theorem deliver (h : w.Sound) (i : ℕ) : (w.step (.deliver i)).Sound := by
  simp only [Link.step]
  split
  · rename_i t ht
    have hsent : t.msg ∈ onStream t.streamId w.sent :=
      mem_onStream.mpr ⟨h.wire t (List.mem_of_getElem? ht), rfl⟩
    have hnum := h.numbered t.streamId
    rcases ReliableReceiver.onReceive_cases w.receiver t.streamId t.seq t.data with
      ⟨hnone, hr⟩ | ⟨last, hlast, hseq, hr⟩ | ⟨last, hlast, hseq, hr⟩
    · rw [hr]
      refine h.accept (Tracks.first hnum hsent ?_) fun last hlast => by simp [hnone] at hlast
      simpa [hnone] using h.tracks t.streamId
    · rw [hr]
      have htr := h.tracks t.streamId
      rw [hlast] at htr
      refine h.accept (Tracks.next hnum hsent htr hseq) fun last' hlast' => ?_
      obtain rfl : last = last' := Option.some.inj (hlast.symm.trans hlast')
      rw [hseq, toNat_add_one (Nat.lt_of_lt_of_le htr.1 hnum.length_le)]
      omega
    · rw [hr]
      simpa using h
  · exact h

/-- `on_ack` with an ACK at or before the receiver's last delivered message keeps the
invariant: what it pops was delivered, or comes before all deliveries of its stream. -/
theorem release (h : w.Sound) {a : Ack}
    (ha : ∃ last, w.receiver.lastDelivered a.streamId = some last ∧ a.lastSeq.toNat ≤ last.toNat) :
    ({ w with
      sender := w.sender.onAck a
      released := w.released ++ (w.sender.acked a).map InFlight.msg }).Sound where
  numbered := h.numbered
  nextSeq := h.nextSeq
  carries := h.carries.onAck a
  wire := h.wire
  tracks := h.tracks
  acks := h.acks
  released x hx := by
    rcases List.mem_append.mp hx with hx | hx
    · exact h.released x hx
    obtain ⟨m, hm, rfl⟩ := List.mem_map.mp hx
    obtain ⟨hst, hsent, hle⟩ := h.carries.acked a m hm
    obtain ⟨last, hlast, hlastSeq⟩ := ha
    have hnum := h.numbered a.streamId
    have htr := h.tracks a.streamId
    rw [hlast] at htr
    have hmem : m.msg ∈ onStream a.streamId w.sent := mem_onStream.mpr ⟨hsent, hst⟩
    have hseq : m.seq.toNat ≤ a.lastSeq.toNat :=
      (seqLe_iff (hnum.seq_lt hmem) (by have := hnum.length_le; have := htr.1; omega)).mp hle
    have hst' : m.msg.streamId = a.streamId := hst
    refine ⟨last, by rw [hst']; exact hlast, by simp only [InFlight.msg]; omega, ?_⟩
    rcases htr.delivered_or_before hnum hmem (by simp only [InFlight.msg]; omega) with hd | hbefore
    · exact .inl (mem_onStream.mp hd).1
    · exact .inr (by rw [hst']; exact hbefore)

theorem recvAck (h : w.Sound) (i : ℕ) : (w.step (.recvAck i)).Sound := by
  simp only [Link.step]
  split
  · rename_i a ha
    exact h.release (h.acks a (List.mem_of_getElem? ha))
  · exact h

/-- One step keeps the invariant, provided a send does not number a stream's `2^31`-st
message. -/
theorem step (h : w.Sound) (op : LinkOp)
    (hop : ∀ st, (op.sentOn st).isSome → (onStream st w.sent).length < 2 ^ 31) :
    (w.step op).Sound := by
  cases op with
  | send data st => exact h.send data st (hop st (by simp [LinkOp.sentOn]))
  | poll due => exact h.poll due
  | deliver i => exact h.deliver i
  | ack st => exact h.ack st
  | recvAck i => exact h.recvAck i
  | tick => exact h.tick

end Link.Sound

/-- The sent log of a stream grows by what the step sends on it. -/
theorem sent_step (w : Link) (op : LinkOp) (st : UInt8) :
    (onStream st (w.step op).sent).map Msg.data =
      (onStream st w.sent).map Msg.data ++ (op.sentOn st).toList := by
  cases op with
  | send data s => by_cases hs : s = st <;> simp [Link.step, LinkOp.sentOn, hs]
  | deliver i =>
    simp only [Link.step]
    split <;> simp [LinkOp.sentOn]
  | recvAck i =>
    simp only [Link.step]
    split <;> simp [LinkOp.sentOn]
  | poll due => simp [Link.step, LinkOp.sentOn]
  | ack s => simp [Link.step, LinkOp.sentOn]
  | tick => simp [Link.step, LinkOp.sentOn]

theorem sends_cons (st : UInt8) (op : LinkOp) (ops : List LinkOp) :
    sends st (op :: ops) = (op.sentOn st).toList ++ sends st ops := by
  cases h : op.sentOn st <;> simp [sends, h]

theorem sent_runLink (w : Link) (ops : List LinkOp) (st : UInt8) :
    (onStream st (runLink w ops).sent).map Msg.data = (onStream st w.sent).map Msg.data ++ sends st ops := by
  induction ops generalizing w with
  | nil => simp [runLink, sends]
  | cons op ops ih =>
    rw [runLink, List.foldl_cons, ← runLink, ih, sent_step, sends_cons, List.append_assoc]

/-- The invariant holds along every run that numbers at most `2^31` messages per stream. -/
theorem Link.Sound.runLink {w : Link} (h : w.Sound) (ops : List LinkOp)
    (hfew : ∀ st, (onStream st w.sent).length + (sends st ops).length ≤ 2 ^ 31) :
    (runLink w ops).Sound := by
  induction ops generalizing w with
  | nil => exact h
  | cons op ops ih =>
    have hlen : ∀ st, (onStream st (w.step op).sent).length =
        (onStream st w.sent).length + (op.sentOn st).toList.length := by
      intro st
      simpa using congrArg List.length (sent_step w op st)
    have hbudget : ∀ st, (onStream st w.sent).length + (op.sentOn st).toList.length +
        (sends st ops).length ≤ 2 ^ 31 := by
      intro st
      have := hfew st
      rw [sends_cons, List.length_append] at this
      omega
    refine ih (h.step op fun st hst => ?_) fun st => ?_
    · have := hbudget st
      rw [Option.isSome_iff_exists] at hst
      obtain ⟨data, hdata⟩ := hst
      rw [hdata, Option.toList_some, List.length_singleton] at this
      have := (sends st ops).length.zero_le
      omega
    · rw [hlen]
      exact hbudget st

/-- Reliable delivery over a link that drops, duplicates and reorders data and ACKs, with fewer
than `2^31` messages per stream. The sender numbers each stream's messages `0, 1, 2, …` in send
order; what the receiver delivers on a stream is a contiguous run of them, byte for byte; and
every message `on_ack` releases was delivered, or comes before everything the receiver
delivered on its stream. -/
theorem reliable_link_delivers_sent_runs (config : ReliableConfig) (ops : List LinkOp)
    (hfew : ∀ st, (sends st ops).length < 2 ^ 31) :
    let w := runLink (Link.init config) ops
    ∀ st, (onStream st w.sent).map Msg.data = sends st ops ∧
      (onStream st w.sent).map (fun m => m.seq.toNat) = List.range (sends st ops).length ∧
      onStream st w.delivered <:+: onStream st w.sent ∧
      ∀ m ∈ onStream st w.released, m ∈ w.delivered ∨ ∀ d ∈ onStream st w.delivered, m.seq < d.seq := by
  intro w st
  have hw : w.Sound := (Link.Sound.init config).runLink ops fun st => by
    simpa [Link.init, onStream] using (hfew st).le
  have hdata : (onStream st w.sent).map Msg.data = sends st ops := by
    have h := sent_runLink (Link.init config) ops st
    rwa [show onStream st (Link.init config).sent = [] from rfl, List.map_nil, List.nil_append] at h
  have hlen : (onStream st w.sent).length = (sends st ops).length := by
    simpa using congrArg List.length hdata
  refine ⟨hdata, ?_, (hw.tracks st).delivered_isInfix, ?_⟩
  · rw [← hlen]
    apply List.ext_getElem (by simp)
    intro i h₁ _
    simp only [List.getElem_map, List.getElem_range]
    exact (hw.numbered st).seq_eq i (by simpa using h₁)
  · intro m hm
    obtain ⟨hm, hst⟩ := mem_onStream.mp hm
    obtain ⟨-, -, -, hor⟩ := hw.released m hm
    rw [hst] at hor
    exact hor.imp_right fun hlt d hd => UInt32.lt_iff_toNat_lt.mpr (hlt d hd)

/-- Stream 0's first message is lost; the second arrives, becomes the receiver's starting
point and is acknowledged, and the ACK covers both. -/
def firstMessageLost : List LinkOp :=
  [.send [1] 0, .send [2] 0, .poll fun _ => false, .poll fun _ => false, .deliver 1, .ack 0,
    .recvAck 0]

theorem reliable_link_delivers_sent_runs_first_lost :
    (∀ st, (sends st firstMessageLost).length < 2 ^ 31) ∧
      let w := runLink (Link.init ReliableConfig.default) firstMessageLost
      ∀ st, (onStream st w.sent).map Msg.data = sends st firstMessageLost ∧
        (onStream st w.sent).map (fun m => m.seq.toNat) =
          List.range (sends st firstMessageLost).length ∧
        onStream st w.delivered <:+: onStream st w.sent ∧
        ∀ m ∈ onStream st w.released,
          m ∈ w.delivered ∨ ∀ d ∈ onStream st w.delivered, m.seq < d.seq := by
  have hfew : ∀ st, (sends st firstMessageLost).length < 2 ^ 31 := fun st =>
    Nat.lt_of_le_of_lt (List.length_filterMap_le _ _) (by decide)
  exact ⟨hfew, reliable_link_delivers_sent_runs ReliableConfig.default firstMessageLost hfew⟩

/-- On that run the ACK releases stream 0's first message, which was never delivered. -/
theorem first_message_released_undelivered :
    let w := runLink (Link.init ReliableConfig.default) firstMessageLost
    (⟨0, 0, [1]⟩ : Msg) ∈ w.released ∧ (⟨0, 0, [1]⟩ : Msg) ∉ w.delivered ∧
      w.delivered = [⟨0, 1, [2]⟩] := by
  decide

/-! ## Overtaking within a stream -/

/-- **A message can overtake an older one of its own stream.** On every run of a link with
fewer than `2^31` messages per stream, a stream with a message parked in the shared pending
queue (which `promote_pending` leaves behind any message whose window is full) and with room in
its own window has its next message put straight in flight: a later message of the stream,
not yet transmitted, is in flight while the earlier one is still pending, so `poll_send`
transmits it first. -/
theorem send_overtakes_parked_message (config : ReliableConfig) (ops : List LinkOp)
    (hfew : ∀ st, (sends st ops).length < 2 ^ 31) (data : List UInt8) (st : UInt8)
    (m : InFlight) :
    (let w := runLink (Link.init config) ops
    m ∈ w.sender.pending → m.streamId = st →
      windowUsed w.sender.inFlight st < w.sender.config.windowSize →
      ∃ later ∈ ((w.sender.send data st).1.inFlight.lookup st).getD [],
        m.seq.toNat < later.seq.toNat ∧ later.retries = 0 ∧ m ∈ (w.sender.send data st).1.pending) := by
  intro w hm hst hwin
  have hw : w.Sound := (Link.Sound.init config).runLink ops fun st => by
    simpa [Link.init, onStream] using (hfew st).le
  have hlen : (onStream st w.sent).length = (sends st ops).length := by
    have h := sent_runLink (Link.init config) ops st
    rw [show onStream st (Link.init config).sent = [] from rfl, List.map_nil,
      List.nil_append] at h
    simpa using congrArg List.length h
  -- the parked message was sent on the stream, so its number is below the stream's count
  have hmsent : m.msg ∈ onStream st w.sent :=
    mem_onStream.mpr ⟨hw.carries.pending m hm, hst⟩
  obtain ⟨hmlt, -⟩ := (hw.numbered st).getElem_seq hmsent
  have hnext : ((w.sender.nextSeq.lookup st).getD 0).toNat = (onStream st w.sent).length := by
    rw [hw.nextSeq st, UInt32.toNat_ofNat', Nat.mod_eq_of_lt (by have := hfew st; omega)]
  have hsend : (w.sender.send data st).1 =
      { w.sender with
        nextSeq := w.sender.nextSeq.insert st ((w.sender.nextSeq.lookup st).getD 0 + 1)
        inFlight := pushBack w.sender.inFlight ⟨(w.sender.nextSeq.lookup st).getD 0, st, data, 0⟩ } := by
    simp only [ReliableSender.send, if_pos hwin]
  refine ⟨⟨(w.sender.nextSeq.lookup st).getD 0, st, data, 0⟩, ?_, ?_, rfl, ?_⟩
  · rw [hsend]
    simp [pushBack]
  · rw [hnext]
    exact hmlt
  · rw [hsend]
    exact hm

/-- With a window of one: streams 1 and 0 each send two messages, the second of each parked;
stream 0's first is delivered and acknowledged, but stream 1's parked message blocks the
pending queue, so stream 0's third message goes in flight and out before its second. -/
def parkedBehindOtherStream : List LinkOp :=
  [.send [] 1, .send [] 1, .send [] 0, .send [] 0, .poll fun _ => false, .poll fun _ => false,
    .deliver 0, .ack 0, .recvAck 0]

theorem stream_message_two_overtakes_message_one :
    (∀ st, (sends st parkedBehindOtherStream).length < 2 ^ 31) ∧
    (⟨1, 0, [], 0⟩ : InFlight) ∈ (runLink (Link.init ⟨1, 5⟩) parkedBehindOtherStream).sender.pending ∧
    windowUsed (runLink (Link.init ⟨1, 5⟩) parkedBehindOtherStream).sender.inFlight 0 < 1 ∧
    (let w := runLink (Link.init ⟨1, 5⟩) parkedBehindOtherStream
    (⟨1, 0, [], 0⟩ : InFlight) ∈ w.sender.pending → (⟨1, 0, [], 0⟩ : InFlight).streamId = 0 →
      windowUsed w.sender.inFlight 0 < w.sender.config.windowSize →
      ∃ later ∈ ((w.sender.send [] 0).1.inFlight.lookup 0).getD [],
        (⟨1, 0, [], 0⟩ : InFlight).seq.toNat < later.seq.toNat ∧ later.retries = 0 ∧
          (⟨1, 0, [], 0⟩ : InFlight) ∈ (w.sender.send [] 0).1.pending) ∧
    ((runLink (Link.init ⟨1, 5⟩) (parkedBehindOtherStream ++ [.send [] 0, .poll fun _ => false])).wire.map
      fun t => (t.streamId, t.seq)) = [(0, 0), (1, 0), (0, 2)] := by
  have hfew : ∀ st, (sends st parkedBehindOtherStream).length < 2 ^ 31 := fun st =>
    Nat.lt_of_le_of_lt (List.length_filterMap_le _ _) (by decide)
  exact ⟨hfew, by decide, by decide,
    send_overtakes_parked_message ⟨1, 5⟩ parkedBehindOtherStream hfew [] 0 ⟨1, 0, [], 0⟩, by decide⟩

end Hdds.Lowbw
