import Hdds.Lowbw.Frame

/-! # The transmit scheduler of the low-bandwidth transport

`transport/lowbw/scheduler.rs`: three priority queues of record bytes, a token bucket, and the
batching of queued records into frames.

* A queue is the list of the records' bytes, front first. The stream id and the enqueue time a
  `QueuedRecord` keeps are never read, and the statistics are left out.
* `Instant::now()` is an explicit `now` in microseconds; the token arithmetic is exact (the
  source's `u64` product `elapsed_us * rate` wraps after months without a refill).
* `build_frame` writes into the scheduler's 2048-byte frame buffer.

`collectRecords_append` and `buildFrame_records` say what a built frame carries: the records
taken from the front of one queue, one after another, with nothing between them.
-/

namespace Hdds.Lowbw
open Wire
set_option autoImplicit false

/-- `Priority`. -/
inductive Priority
  | p0
  | p1
  | p2
  deriving DecidableEq, Repr

/-- `SchedulerConfig`. -/
structure SchedulerConfig where
  rateBps : ℕ
  bucketSize : ℕ
  batchWindowMs : ℕ
  maxFrameSize : ℕ
  p0Capacity : ℕ
  p1Capacity : ℕ
  p2Capacity : ℕ

/-- `SchedulerConfig::default`. -/
def SchedulerConfig.default : SchedulerConfig := ⟨9600, 512, 100, 256, 32, 64, 128⟩

/-- `Scheduler`, with times in microseconds. -/
structure Scheduler where
  config : SchedulerConfig
  tokens : ℕ
  lastRefill : ℕ
  p0Queue : List (List UInt8)
  p1Queue : List (List UInt8)
  p2Queue : List (List UInt8)
  lastBatchTime : ℕ

namespace Scheduler

/-- `Scheduler::new` at time `now`: a full bucket and empty queues. -/
def new (config : SchedulerConfig) (now : ℕ) : Scheduler :=
  ⟨config, config.bucketSize, now, [], [], [], now⟩

/-- The queue of a priority. -/
def queue (s : Scheduler) : Priority → List (List UInt8)
  | .p0 => s.p0Queue
  | .p1 => s.p1Queue
  | .p2 => s.p2Queue

/-- The scheduler with the queue of a priority replaced. -/
def setQueue (s : Scheduler) : Priority → List (List UInt8) → Scheduler
  | .p0, q => { s with p0Queue := q }
  | .p1, q => { s with p1Queue := q }
  | .p2, q => { s with p2Queue := q }

/-- `Scheduler::enqueue`: P0 and P1 drop their oldest record when full, P2 drops the new one;
whether the record was queued. -/
def enqueue (s : Scheduler) (priority : Priority) (data : List UInt8) : Scheduler × Bool :=
  match priority with
  | .p0 =>
    if s.p0Queue.length < s.config.p0Capacity then ({ s with p0Queue := s.p0Queue ++ [data] }, true)
    else ({ s with p0Queue := s.p0Queue.tail ++ [data] }, true)
  | .p1 =>
    if s.p1Queue.length < s.config.p1Capacity then ({ s with p1Queue := s.p1Queue ++ [data] }, true)
    else ({ s with p1Queue := s.p1Queue.tail ++ [data] }, true)
  | .p2 =>
    if s.p2Queue.length < s.config.p2Capacity then ({ s with p2Queue := s.p2Queue ++ [data] }, true)
    else (s, false)

/-- `Scheduler::refill_tokens` at time `now`: `rate_bps / 8` bytes a second, up to the bucket
size; the refill time moves only when a token is added. -/
def refillTokens (s : Scheduler) (now : ℕ) : Scheduler :=
  let elapsedUs := now - s.lastRefill
  let rateBytesPerSec := s.config.rateBps / 8
  let newTokens := elapsedUs * rateBytesPerSec / 1000000
  if newTokens > 0 then { s with tokens := min (s.tokens + newTokens) s.config.bucketSize, lastRefill := now }
  else s

/-- `Scheduler::try_consume_tokens`. -/
def tryConsumeTokens (s : Scheduler) (now : ℕ) (bytes : ℕ) : Scheduler × Bool :=
  let s := s.refillTokens now
  if s.tokens ≥ bytes then ({ s with tokens := s.tokens - bytes }, true) else (s, false)

/-- `Scheduler::batch_window_elapsed`. -/
def batchWindowElapsed (s : Scheduler) (now : ℕ) : Bool :=
  now - s.lastBatchTime ≥ s.config.batchWindowMs * 1000

/-- `Scheduler::should_flush_batch`: P1 more than 75 % full or P2 more than 90 % full. -/
def shouldFlushBatch (s : Scheduler) : Bool :=
  s.p1Queue.length > s.config.p1Capacity * 3 / 4 || s.p2Queue.length > s.config.p2Capacity * 9 / 10

end Scheduler

/-- The collection loop of `build_frame`: records from the front of a queue while the bytes
taken so far (`used`) and the next record fit in `maxPayload`; the records taken and the rest
of the queue. -/
def collectRecords (maxPayload : ℕ) : ℕ → List (List UInt8) → List (List UInt8) × List (List UInt8)
  | _, [] => ([], [])
  | used, record :: queue =>
    if used + record.length > maxPayload then ([], record :: queue)
    else
      let rest := collectRecords maxPayload (used + record.length) queue
      (record :: rest.1, rest.2)

/-- The frame buffer `build_frame` encodes into. -/
def frameBufLen : ℕ := 2048

namespace Scheduler

/-- `Scheduler::build_frame` at time `now` from the queue of `priority`: the new scheduler, the
next frame sequence number, and the frame. A P0 frame skips the token check but still spends
tokens; records that cannot be sent go back to the front of their queue. -/
def buildFrame (s : Scheduler) (now : ℕ) (priority : Priority) (sessionId : UInt16) (frameSeq : UInt32) :
    Scheduler × UInt32 × Option (List UInt8) :=
  let isP0 := priority == .p0
  let maxPayload := s.config.maxFrameSize - 16
  if (s.queue priority).isEmpty then (s, frameSeq, none) else
  let taken := collectRecords maxPayload 0 (s.queue priority)
  let recordsData := taken.1.flatten
  let s := s.setQueue priority taken.2
  if recordsData.isEmpty then (s, frameSeq, none) else
  let frameSize := recordsData.length + 16
  let consumed := if isP0 then (s, true) else s.tryConsumeTokens now frameSize
  -- the records go back to the front of their queue if the tokens or the encoding fail
  if !consumed.2 then (consumed.1.setQueue priority (taken.1 ++ taken.2), frameSeq, none) else
  let s := consumed.1
  let s := if isP0 then
      let s := s.refillTokens now
      { s with tokens := s.tokens - frameSize }
    else s
  let header := FrameHeader.new sessionId frameSeq
  let nextSeq := frameSeq + 1
  match encodeFrame header recordsData frameBufLen with
  | .ok frame => ({ s with lastBatchTime := now }, nextSeq, some frame)
  | .error _ => (s.setQueue priority (taken.1 ++ taken.2), nextSeq, none)

/-- `Scheduler::poll_frame` at time `now`: P0 at once; P1, then P2, once the batch window has
passed or a queue is nearly full. -/
def pollFrame (s : Scheduler) (now : ℕ) (sessionId : UInt16) (frameSeq : UInt32) :
    Scheduler × UInt32 × Option (List UInt8) :=
  if !s.p0Queue.isEmpty then s.buildFrame now .p0 sessionId frameSeq
  else if s.batchWindowElapsed now || s.shouldFlushBatch then
    if !s.p1Queue.isEmpty then s.buildFrame now .p1 sessionId frameSeq
    else if !s.p2Queue.isEmpty then s.buildFrame now .p2 sessionId frameSeq
    else (s, frameSeq, none)
  else (s, frameSeq, none)

/-- The number of queued records, over the three queues. -/
def queued (s : Scheduler) : ℕ := s.p0Queue.length + s.p1Queue.length + s.p2Queue.length

end Scheduler

/-! ## What a frame carries -/

theorem collectRecords_append (maxPayload used : ℕ) (queue : List (List UInt8)) :
    (collectRecords maxPayload used queue).1 ++ (collectRecords maxPayload used queue).2 = queue := by
  induction queue generalizing used with
  | nil => rfl
  | cons record queue ih =>
    unfold collectRecords
    split
    · rfl
    · simp only [List.cons_append, ih]

namespace Scheduler

variable (s : Scheduler)

@[simp] theorem queue_setQueue_self (p : Priority) (q : List (List UInt8)) : (s.setQueue p q).queue p = q := by
  cases p <;> rfl

@[simp] theorem config_setQueue (p : Priority) (q : List (List UInt8)) : (s.setQueue p q).config = s.config := by
  cases p <;> rfl

theorem queued_setQueue (p : Priority) (q : List (List UInt8)) :
    (s.setQueue p q).queued + (s.queue p).length = s.queued + q.length := by
  cases p <;> simp only [setQueue, queue, queued] <;> omega

theorem queued_eq_of_queue {s' : Scheduler} (h : ∀ p, s'.queue p = s.queue p) : s'.queued = s.queued := by
  simp only [queued]
  rw [show s'.p0Queue = s.p0Queue from h .p0, show s'.p1Queue = s.p1Queue from h .p1,
    show s'.p2Queue = s.p2Queue from h .p2]

/-- A scheduler updated in its other fields has the queues it was updated from. -/
@[simp] theorem queue_mk (config : SchedulerConfig) (tokens lastRefill lastBatchTime : ℕ) (p : Priority) :
    (Scheduler.mk config tokens lastRefill s.p0Queue s.p1Queue s.p2Queue lastBatchTime).queue p = s.queue p := by
  cases p <;> rfl

/-- The token bucket leaves the queues alone. -/
@[simp] theorem queue_refillTokens (now : ℕ) (p : Priority) : (s.refillTokens now).queue p = s.queue p := by
  unfold refillTokens
  dsimp only
  split
  · exact queue_mk s _ _ _ _ p
  · rfl

@[simp] theorem queue_tryConsumeTokens (now bytes : ℕ) (p : Priority) :
    (s.tryConsumeTokens now bytes).1.queue p = s.queue p := by
  unfold tryConsumeTokens
  dsimp only
  split <;> simp only [queue_mk, queue_refillTokens]

/-- A built frame is the frame of the records `collectRecords` takes from the front of the
queue, at least one, and the scheduler keeps the rest of that queue and the other queues. -/
theorem buildFrame_records {now : ℕ} {priority : Priority} {sessionId : UInt16} {frameSeq : UInt32}
    {frame : List UInt8} (h : (s.buildFrame now priority sessionId frameSeq).2.2 = some frame) :
    ∃ records rest, collectRecords (s.config.maxFrameSize - 16) 0 (s.queue priority) = (records, rest) ∧
      records ≠ [] ∧ encodeFrame (FrameHeader.new sessionId frameSeq) records.flatten frameBufLen = .ok frame ∧
      ∀ p, (s.buildFrame now priority sessionId frameSeq).1.queue p = (s.setQueue priority rest).queue p := by
  rcases htaken : collectRecords (s.config.maxFrameSize - 16) 0 (s.queue priority) with ⟨records, rest⟩
  refine ⟨records, rest, rfl, ?_⟩
  unfold buildFrame at h ⊢
  dsimp only at h ⊢
  rw [htaken] at h ⊢
  split_ifs at h ⊢ with hempty hdata hp0 hconsumed <;> dsimp only at h ⊢
  -- only the branches that encode a frame are left once the encoding is split
  all_goals cases henc : encodeFrame (FrameHeader.new sessionId frameSeq) records.flatten frameBufLen
  all_goals simp only [henc, reduceCtorEq, Option.some.injEq] at h ⊢
  all_goals
    refine ⟨fun hnil => hdata (by simp [hnil]), h ▸ rfl, fun p => ?_⟩
    simp only [queue_mk, queue_refillTokens, queue_tryConsumeTokens]

/-- Every frame built takes at least one record off the queues. -/
theorem queued_buildFrame_lt {now : ℕ} {priority : Priority} {sessionId : UInt16} {frameSeq : UInt32}
    {frame : List UInt8} (h : (s.buildFrame now priority sessionId frameSeq).2.2 = some frame) :
    (s.buildFrame now priority sessionId frameSeq).1.queued < s.queued := by
  obtain ⟨records, rest, htaken, hne, -, hq⟩ := s.buildFrame_records h
  have happ : records ++ rest = s.queue priority := by
    simpa only [htaken] using collectRecords_append (s.config.maxFrameSize - 16) 0 (s.queue priority)
  have hlen : rest.length < (s.queue priority).length := by
    rw [← happ, List.length_append]
    have := List.length_pos_of_ne_nil hne
    omega
  have hset := s.queued_setQueue priority rest
  rw [queued_eq_of_queue (s.setQueue priority rest) hq]
  omega

theorem queued_pollFrame_lt {now : ℕ} {sessionId : UInt16} {frameSeq : UInt32} {frame : List UInt8}
    (h : (s.pollFrame now sessionId frameSeq).2.2 = some frame) :
    (s.pollFrame now sessionId frameSeq).1.queued < s.queued := by
  unfold pollFrame at h ⊢
  split_ifs at h ⊢
  all_goals exact s.queued_buildFrame_lt h

/-! ## Polling, and where it stalls -/

theorem setQueue_queue_self (p : Priority) : s.setQueue p (s.queue p) = s := by
  cases p <;> rfl

/-- `poll_frame` either returns nothing and changes nothing, or is `build_frame` on one queue. -/
theorem pollFrame_cases (now : ℕ) (sessionId : UInt16) (frameSeq : UInt32) :
    s.pollFrame now sessionId frameSeq = (s, frameSeq, none) ∨
      ∃ p, s.pollFrame now sessionId frameSeq = s.buildFrame now p sessionId frameSeq := by
  unfold pollFrame
  split_ifs
  · exact .inr ⟨.p0, rfl⟩
  · exact .inr ⟨.p1, rfl⟩
  · exact .inr ⟨.p2, rfl⟩
  · exact .inl rfl
  · exact .inl rfl

theorem buildFrame_seq {now : ℕ} {priority : Priority} {sessionId : UInt16} {frameSeq : UInt32}
    {frame : List UInt8} (h : (s.buildFrame now priority sessionId frameSeq).2.2 = some frame) :
    (s.buildFrame now priority sessionId frameSeq).2.1 = frameSeq + 1 := by
  rcases htaken : collectRecords (s.config.maxFrameSize - 16) 0 (s.queue priority) with
    ⟨records, rest⟩
  unfold buildFrame at h ⊢
  dsimp only at h ⊢
  rw [htaken] at h ⊢
  split_ifs at h ⊢ <;> dsimp only at h ⊢
  -- a frame comes only out of a successful encoding, which advances the sequence number
  all_goals cases henc : encodeFrame (FrameHeader.new sessionId frameSeq) records.flatten frameBufLen
  all_goals simp only [henc, reduceCtorEq] at h ⊢

/-- When the records `build_frame` takes from the front of a queue carry no bytes, it returns
nothing, and the records are gone from their queue. -/
theorem buildFrame_of_flatten_eq_nil (now : ℕ) (priority : Priority) (sessionId : UInt16)
    (frameSeq : UInt32) {records rest : List (List UInt8)} (hne : s.queue priority ≠ [])
    (htaken : collectRecords (s.config.maxFrameSize - 16) 0 (s.queue priority) = (records, rest))
    (hnil : records.flatten = []) :
    s.buildFrame now priority sessionId frameSeq = (s.setQueue priority rest, frameSeq, none) := by
  unfold buildFrame
  dsimp only
  rw [if_neg (by simpa using hne), htaken]
  dsimp only
  rw [hnil]
  rfl

/-- A frame `poll_frame` returns carries the next sequence number, decodes with the session id
and the sequence number it was built with, and holds at least one record from the front of one
queue, which the scheduler no longer holds. -/
theorem pollFrame_frame {now : ℕ} {sessionId : UInt16} {frameSeq : UInt32} {frame : List UInt8}
    (h : (s.pollFrame now sessionId frameSeq).2.2 = some frame) :
    (s.pollFrame now sessionId frameSeq).2.1 = frameSeq + 1 ∧
      ∃ p records rest, records ≠ [] ∧ records ++ rest = s.queue p ∧
        (∀ q, (s.pollFrame now sessionId frameSeq).1.queue q = (s.setQueue p rest).queue q) ∧
        decodeFrame frame =
          some (.ok ⟨FrameHeader.new sessionId frameSeq, records.flatten, frame.length⟩) := by
  rcases s.pollFrame_cases now sessionId frameSeq with heq | ⟨p, heq⟩
  · rw [heq] at h
    cases h
  rw [heq] at h ⊢
  obtain ⟨records, rest, htaken, hne, henc, hq⟩ := s.buildFrame_records h
  have happ : records ++ rest = s.queue p := by
    simpa only [htaken] using collectRecords_append (s.config.maxFrameSize - 16) 0 (s.queue p)
  have hdec := decodeFrame_encodeFrame rfl henc []
  rw [List.append_nil] at hdec
  exact ⟨s.buildFrame_seq h, p, records, rest, hne, happ, hq, hdec⟩

end Scheduler

theorem collectRecords_of_lt {maxPayload used : ℕ} {record : List UInt8}
    (queue : List (List UInt8)) (h : maxPayload < used + record.length) :
    collectRecords maxPayload used (record :: queue) = ([], record :: queue) := by
  rw [collectRecords, if_pos h]

theorem collectRecords_replicate_nil (maxPayload used k : ℕ) (h : used ≤ maxPayload) :
    collectRecords maxPayload used (List.replicate k []) = (List.replicate k [], []) := by
  induction k with
  | zero => rfl
  | succ k ih =>
    rw [List.replicate_succ, collectRecords, if_neg (by simp; omega)]
    simp [ih]

/-- **A P0 record longer than a frame stalls the link.** Every frame `poll_frame` returns
decodes with the session id and the sequence number it was built with, carries the next
sequence number, and holds records taken from the front of one queue. But a P0 record longer
than `max_frame_size - 16` bytes at the front of the P0 queue makes `poll_frame` return `None`
and change nothing, so it returns `None` on every later call while the P0 queue is not empty,
and P1 and P2 are never served; and P0 records with no bytes are taken off the queue and never
sent. -/
theorem scheduler_poll_stalls_on_oversized_p0_record :
    (∀ (s : Scheduler) (now : ℕ) (sessionId : UInt16) (frameSeq : UInt32) (frame : List UInt8),
      (s.pollFrame now sessionId frameSeq).2.2 = some frame →
      (s.pollFrame now sessionId frameSeq).2.1 = frameSeq + 1 ∧
      ∃ p records rest, records ≠ [] ∧ records ++ rest = s.queue p ∧
        (∀ q, (s.pollFrame now sessionId frameSeq).1.queue q = (s.setQueue p rest).queue q) ∧
        decodeFrame frame =
          some (.ok ⟨FrameHeader.new sessionId frameSeq, records.flatten, frame.length⟩)) ∧
    (∀ (s : Scheduler) (now : ℕ) (sessionId : UInt16) (frameSeq : UInt32) (record : List UInt8)
      (rest : List (List UInt8)), s.p0Queue = record :: rest →
      s.config.maxFrameSize - 16 < record.length →
      s.pollFrame now sessionId frameSeq = (s, frameSeq, none)) ∧
    (∀ (s : Scheduler) (now : ℕ) (sessionId : UInt16) (frameSeq : UInt32) (k : ℕ), 0 < k →
      s.p0Queue = List.replicate k [] →
      s.pollFrame now sessionId frameSeq = ({ s with p0Queue := [] }, frameSeq, none)) := by
  refine ⟨fun s now sessionId frameSeq frame h => s.pollFrame_frame h, ?_, ?_⟩
  · intro s now sessionId frameSeq record rest hq hbig
    have hne : s.queue .p0 ≠ [] := by simp [Scheduler.queue, hq]
    have htaken : collectRecords (s.config.maxFrameSize - 16) 0 (s.queue .p0) =
        ([], s.queue .p0) := by
      rw [show s.queue .p0 = record :: rest from hq]
      exact collectRecords_of_lt rest (by omega)
    unfold Scheduler.pollFrame
    rw [if_pos (by simp [hq]), s.buildFrame_of_flatten_eq_nil now .p0 sessionId frameSeq hne htaken rfl,
      Scheduler.setQueue_queue_self]
  · intro s now sessionId frameSeq k hk hq
    have hne : s.queue .p0 ≠ [] := by
      rw [show s.queue .p0 = List.replicate k [] from hq]
      exact List.ne_nil_of_length_pos (by simpa using hk)
    have htaken : collectRecords (s.config.maxFrameSize - 16) 0 (s.queue .p0) =
        (List.replicate k [], []) := by
      rw [show s.queue .p0 = List.replicate k [] from hq]
      exact collectRecords_replicate_nil _ 0 k (Nat.zero_le _)
    unfold Scheduler.pollFrame
    rw [if_pos (by simpa [Scheduler.queue] using hne),
      s.buildFrame_of_flatten_eq_nil now .p0 sessionId frameSeq hne htaken (by simp)]
    rfl

/-- The default configuration: one P0 record of 241 bytes, or one of no bytes. -/
theorem scheduler_poll_stalls_on_241_byte_p0_record :
    (((Scheduler.new .default 0).enqueue .p0 (List.replicate 241 0)).1.pollFrame 0 1 0).2.2 = none ∧
    (((Scheduler.new .default 0).enqueue .p0 []).1.pollFrame 0 1 0).1.p0Queue = [] ∧
    (((Scheduler.new .default 0).enqueue .p0 []).1.pollFrame 0 1 0).2.2 = none := by
  refine ⟨?_, ?_, ?_⟩
  · rw [scheduler_poll_stalls_on_oversized_p0_record.2.1 _ 0 1 0 (List.replicate 241 0) [] rfl
      (by rw [List.length_replicate]; decide)]
  · rw [scheduler_poll_stalls_on_oversized_p0_record.2.2 _ 0 1 0 1 (by decide) rfl]
  · rw [scheduler_poll_stalls_on_oversized_p0_record.2.2 _ 0 1 0 1 (by decide) rfl]

end Hdds.Lowbw
