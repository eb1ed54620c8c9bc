import Hdds.Reliability.Messages

/-! # The reader side of the reliability protocol

`reliability/reader.rs` and `reliability/gap_tracker.rs`: `HeartbeatRx`, which turns a
HEARTBEAT into the range of sequence numbers the reader has not seen yet, `GapRx`, which turns
a GAP into the ranges to mark lost, the `GapTracker` of missing ranges, and the `NackScheduler`
state machine built on it.

* A `Range<u64>` is the pair `(start, end)`.
* `Instant::now()` is an explicit argument `now`, and durations are naturals in milliseconds.
* Sequence numbers are naturals. `reader_last_seen + 1` cannot overflow in `on_heartbeat`
  (it is below `hb.last_seq`); `hb.last_seq + 1` is the wrapping sum.
* The `u64` counters of `GapRx` are naturals: they would have to pass `2 ^ 64` to wrap.
-/

namespace Hdds.Reliability
open Wire
set_option autoImplicit false

/-! ## HeartbeatRx -/

/-- `HeartbeatRx`: the count of the last accepted HEARTBEAT. -/
structure HeartbeatRx where
  lastCount : Option ℕ
deriving DecidableEq, Repr

namespace HeartbeatRx

/-- `HeartbeatRx::new`. -/
def new : HeartbeatRx := ⟨none⟩

/-- `HeartbeatRx::on_heartbeat`: a HEARTBEAT whose count does not exceed the last accepted one
is dropped; otherwise its count is kept and the sequences after `readerLastSeen` up to
`hb.last_seq` are reported missing. -/
def onHeartbeat (rx : HeartbeatRx) (hb : HeartbeatMsg) (readerLastSeen : ℕ) :
    HeartbeatRx × Option (List (ℕ × ℕ)) :=
  let accepted : Option (List (ℕ × ℕ)) :=
    if hb.lastSeq > readerLastSeen then some [(readerLastSeen + 1, (hb.lastSeq + 1) % 2 ^ 64)]
    else none
  match rx.lastCount with
  | some lastCount => if hb.count ≤ lastCount then (rx, none) else (⟨some hb.count⟩, accepted)
  | none => (⟨some hb.count⟩, accepted)

end HeartbeatRx

/-! ## GapRx -/

/-- `GapRx`: how many GAPs were processed and how many sequences they declared lost. -/
structure GapRx where
  gapCount : ℕ
  totalLost : ℕ
deriving DecidableEq, Repr

namespace GapRx

/-- `GapRx::new`. -/
def new : GapRx := ⟨0, 0⟩

/-- `GapRx::on_gap`: the GAP's lost ranges, each counted by its `u64` length into
`total_lost`. -/
def onGap (rx : GapRx) (gap : GapMsg) : GapRx × List (ℕ × ℕ) :=
  let ranges := gap.lostRanges
  let lost := (ranges.map GapMsg.rangeLen).sum
  (⟨rx.gapCount + 1, rx.totalLost + lost⟩, ranges)

theorem onGap_ranges (rx : GapRx) (gap : GapMsg) : (rx.onGap gap).2 = gap.lostRanges := rfl

/-- `on_gap` counts every entry of `lost_sequences`, `gap_start` and each member of the set. -/
theorem totalLost_onGap (rx : GapRx) (gap : GapMsg) (hstart : gap.gapStart < 2 ^ 64) :
    (rx.onGap gap).1.totalLost = rx.totalLost + (gap.gapList.iter.length + 1) := by
  simp only [onGap, GapMsg.sum_lostRanges gap hstart]

-- at `gap_start = u64::MAX` the range's end wraps to `0`, and its wrapping length is still one
example : let gap : GapMsg := ⟨ByteArr.zero 4, ByteArr.zero 4, 2 ^ 64 - 1, .empty 0⟩
    (GapRx.new.onGap gap).2 = [(2 ^ 64 - 1, 0)] ∧ (GapRx.new.onGap gap).1.totalLost = 1 := by
  decide

/-- A GAP whose `gap_start` is not among the members of its set: the ranges `on_gap` returns are
the maximal runs of the lost sequences, and `total_lost` grows by their number. -/
theorem on_gap_counts_distinct_lost (rx : GapRx) (gap : GapMsg)
    (hwindow : asU64 gap.gapList.base + gap.gapList.numBits < 2 ^ 64)
    (hstart : gap.gapStart + 1 < 2 ^ 64) (hfresh : gap.gapStart ∉ gap.gapList.iter) :
    Bitmap.IsRuns (fun x => x = gap.gapStart ∨ x ∈ gap.gapList.iter) (rx.onGap gap).2 ∧
      (rx.onGap gap).1.totalLost =
        rx.totalLost + (gap.gapStart :: gap.gapList.iter).dedup.length := by
  have hiter := SequenceNumberSet.iter_pairwise _ hwindow.le
  have hdedup : (gap.gapStart :: gap.gapList.iter).dedup = gap.gapStart :: gap.gapList.iter :=
    List.nodup_cons.mpr ⟨hfresh, hiter.imp ne_of_lt⟩ |>.dedup
  -- no lost sequence is `u64::MAX`: the members of the set lie below `base + num_bits`
  have hbound : ∀ x ∈ gap.gapStart :: gap.gapList.iter, x + 1 < 2 ^ 64 := by
    intro x hx
    rcases List.mem_cons.mp hx with rfl | hx
    · exact hstart
    · obtain ⟨o, ho, -, rfl⟩ := SequenceNumberSet.mem_iter.mp hx
      rw [Nat.mod_eq_of_lt (by omega)]
      omega
  refine ⟨gap.lostRanges_isRuns hiter hfresh hbound, ?_⟩
  rw [totalLost_onGap rx gap (by omega), hdedup, List.length_cons]

theorem on_gap_counts_distinct_lost_contiguous :
    let gap : GapMsg := ⟨ByteArr.zero 4, ByteArr.zero 4, 3,
      ⟨4, 32, ⟨[0xC0000000, 0, 0, 0, 0, 0, 0, 0], rfl, Bitmap.fits32_of_forall (by decide)⟩,
        by decide⟩⟩
    (GapRx.new.onGap gap).2 = [(3, 6)] ∧
      Bitmap.IsRuns (fun x => x = 3 ∨ x ∈ gap.gapList.iter) (GapRx.new.onGap gap).2 ∧
      (GapRx.new.onGap gap).1.totalLost = 3 := by
  intro gap
  have h := on_gap_counts_distinct_lost GapRx.new gap (by decide) (by decide) (by decide)
  exact ⟨by decide, h.1, by rw [h.2]; decide⟩

/-- A GAP whose `gap_start` is also a member of its set, as `decode_cdr2_le` accepts from the
wire: `lost_sequences` holds `gap_start` twice, `lost_ranges` returns two ranges over it, and
`on_gap` counts it twice. -/
theorem on_gap_counts_repeated_start (rx : GapRx) (gap : GapMsg)
    (hwindow : asU64 gap.gapList.base + gap.gapList.numBits ≤ 2 ^ 64)
    (hdup : gap.gapStart ∈ gap.gapList.iter) :
    ¬Bitmap.IsRuns (fun x => x = gap.gapStart ∨ x ∈ gap.gapList.iter) (rx.onGap gap).2 ∧
      (rx.onGap gap).1.totalLost =
        rx.totalLost + (gap.gapStart :: gap.gapList.iter).dedup.length + 1 := by
  have hnodup : gap.gapList.iter.Nodup := (SequenceNumberSet.iter_pairwise _ hwindow).imp ne_of_lt
  have hdedup : (gap.gapStart :: gap.gapList.iter).dedup = gap.gapList.iter := by
    rw [List.dedup_cons_of_mem hdup, hnodup.dedup]
  -- as a member of the set, `gap_start` is a `u64`
  have hstart : gap.gapStart < 2 ^ 64 := by
    obtain ⟨o, -, -, hx⟩ := SequenceNumberSet.mem_iter.mp hdup
    rw [hx]
    exact Nat.mod_lt _ (by norm_num)
  refine ⟨fun hruns => ?_, by rw [totalLost_onGap rx gap hstart, hdedup]; omega⟩
  -- runs of the members of `iter` would be as long together as `iter`, one less than the ranges
  have hset : ∀ x, x = gap.gapStart ∨ x ∈ gap.gapList.iter ↔ x ∈ gap.gapList.iter := by
    intro x
    constructor
    · rintro (rfl | hx)
      · exact hdup
      · exact hx
    · exact Or.inr
  rw [onGap_ranges] at hruns
  have hsum := (hruns.congr hset).sum_eq_length hnodup
  rw [← GapMsg.map_rangeLen_of_isRuns hruns gap.lostRanges_snd_lt,
    GapMsg.sum_lostRanges gap hstart] at hsum
  omega

theorem on_gap_counts_repeated_start_decoded :
    let gap : GapMsg := ⟨ByteArr.zero 4, ByteArr.zero 4, 5,
      ⟨5, 32, ⟨[0x80000000, 0, 0, 0, 0, 0, 0, 0], rfl, Bitmap.fits32_of_forall (by decide)⟩,
        by decide⟩⟩
    GapMsg.decodeCdr2Le [0, 0, 0, 0, 0, 0, 0, 0, 5, 0, 0, 0, 0, 0, 0, 0, 5, 0, 0, 0, 0, 0, 0, 0,
        32, 0, 0, 0, 0, 0, 0, 0x80] = some gap ∧
      (GapRx.new.onGap gap).2 = [(5, 6), (5, 6)] ∧
      ¬Bitmap.IsRuns (fun x => x = 5 ∨ x ∈ gap.gapList.iter) (GapRx.new.onGap gap).2 ∧
      (GapRx.new.onGap gap).1.totalLost = 2 := by
  intro gap
  have h := on_gap_counts_repeated_start GapRx.new gap (by decide) (by decide)
  -- the bytes are the encoding of `gap`, whose one word is all its set has
  have henc : gap.encodeCdr2Le = [0, 0, 0, 0, 0, 0, 0, 0, 5, 0, 0, 0, 0, 0, 0, 0, 5, 0, 0, 0, 0, 0,
      0, 0, 32, 0, 0, 0, 0, 0, 0, 0x80] := by decide
  have hcanon : gap.gapList.Canonical := by
    intro j hj
    have hwc : gap.gapList.wordCount = 1 := by decide
    have hwords : gap.gapList.bitmap.words = 0x80000000 :: List.replicate 7 0 := rfl
    obtain ⟨k, rfl⟩ : ∃ k, j = k + 1 := ⟨j - 1, by rw [hwc] at hj; omega⟩
    rw [hwords, List.getD_cons_succ, List.getD_eq_getElem?_getD, List.getElem?_replicate]
    split <;> rfl
  refine ⟨?_, by decide, h.1, by rw [h.2]; decide⟩
  rw [← henc]
  exact GapMsg.decodeCdr2Le_encodeCdr2Le gap (by decide) (by decide) (by decide) hcanon

end GapRx

/-! ## GapTracker -/

/-- `MAX_GAP_RANGES`. -/
def maxGapRanges : ℕ := 100

/-- `GapTracker`: the highest sequence seen and the pending gap ranges. -/
structure GapTracker where
  lastSeen : ℕ
  gaps : List (ℕ × ℕ)
deriving DecidableEq, Repr

namespace GapTracker

/-- `GapTracker::new`. -/
def new : GapTracker := ⟨0, []⟩

/-- What `mark_filled` keeps of one gap: the gap itself when it does not meet `filled`,
otherwise the parts on either side. -/
def splitGap (filled gap : ℕ × ℕ) : List (ℕ × ℕ) :=
  if filled.2 ≤ gap.1 ∨ filled.1 ≥ gap.2 then [gap]
  else
    (if gap.1 < filled.1 then [(gap.1, filled.1)] else []) ++
      (if filled.2 < gap.2 then [(filled.2, gap.2)] else [])

/-- `GapTracker::mark_filled`. -/
def markFilled (t : GapTracker) (filled : ℕ × ℕ) : GapTracker :=
  { t with gaps := t.gaps.flatMap (splitGap filled) }

/-- The merge loop of `merge_and_compact`: `current` absorbs every following range that starts
where it ends. -/
def mergeAdjacent : ℕ × ℕ → List (ℕ × ℕ) → List (ℕ × ℕ)
  | current, [] => [current]
  | current, gap :: rest =>
    if gap.1 = current.2 then mergeAdjacent (current.1, gap.2) rest
    else current :: mergeAdjacent gap rest

/-- `merge_and_compact`: stable sort by start (insertion sort is stable, as `sort_by_key` is),
merge adjacent ranges, keep the last `MAX_GAP_RANGES`. -/
def mergeAndCompact (t : GapTracker) : GapTracker :=
  match t.gaps.insertionSort (fun a b => a.1 ≤ b.1) with
  | [] => t
  | first :: rest =>
    let merged := mergeAdjacent first rest
    { t with gaps := merged.drop (merged.length - maxGapRanges) }

/-- `GapTracker::on_receive`. -/
def onReceive (t : GapTracker) (seq : ℕ) : GapTracker :=
  if seq = 0 then t
  else if seq = t.lastSeen + 1 then { t with lastSeen := seq }
  else if seq > t.lastSeen + 1 then
    mergeAndCompact { lastSeen := seq, gaps := t.gaps ++ [(t.lastSeen + 1, seq)] }
  else t.markFilled (seq, seq + 1)

/-- `GapTracker::total_missing`: the sum of the gap lengths. -/
def totalMissing (t : GapTracker) : ℕ := (t.gaps.map (fun r => r.2 - r.1)).sum

/-- `GapTracker::mark_lost`. -/
def markLost (t : GapTracker) (lost : ℕ × ℕ) : GapTracker :=
  if lost.1 ≥ lost.2 then t
  else
    let t := t.markFilled lost
    let t := if lost.2 > 0 then { t with lastSeen := lost.2 - 1 } else t
    mergeAndCompact t

end GapTracker

/-! ## NackScheduler -/

/-- `DEFAULT_WINDOW_MS`. -/
def defaultWindowMs : ℕ := 20
/-- `MAX_RETRIES`. -/
def maxRetries : ℕ := 5
/-- `INITIAL_BACKOFF_MS`. -/
def initialBackoffMs : ℕ := 50

/-- `NackScheduler` (the metrics handle is left out). -/
structure NackScheduler where
  tracker : GapTracker
  nextFlush : Option ℕ
  window : ℕ
  retryCount : ℕ
  backoff : ℕ
  initialBackoff : ℕ
deriving DecidableEq, Repr

namespace NackScheduler

/-- `NackScheduler::with_window_ms`. -/
def withWindowMs (windowMs : ℕ) : NackScheduler :=
  ⟨GapTracker.new, none, windowMs, 0, initialBackoffMs, initialBackoffMs⟩

/-- `NackScheduler::new`. -/
def new : NackScheduler := withWindowMs defaultWindowMs

/-- `reset`: back to IDLE. -/
def reset (s : NackScheduler) : NackScheduler :=
  { s with nextFlush := none, retryCount := 0, backoff := s.initialBackoff }

/-- `NackScheduler::on_receive`. -/
def onReceive (s : NackScheduler) (now seq : ℕ) : NackScheduler :=
  let hadGapsBefore := !s.tracker.gaps.isEmpty
  let s := { s with tracker := s.tracker.onReceive seq }
  let hasGapsNow := !s.tracker.gaps.isEmpty
  let s := if !hadGapsBefore && hasGapsNow && s.nextFlush.isNone then
      { s with nextFlush := some (now + s.window) }
    else s
  if !hasGapsNow then s.reset else s

/-- `NackScheduler::on_gap`. -/
def onGap (s : NackScheduler) (now : ℕ) : NackScheduler :=
  if s.tracker.gaps.isEmpty && s.nextFlush.isNone then { s with nextFlush := some (now + s.window) }
  else s

/-- `NackScheduler::try_flush`. -/
def tryFlush (s : NackScheduler) (now : ℕ) : Option (List (ℕ × ℕ)) :=
  match s.nextFlush with
  | some deadline => if now ≥ deadline ∧ s.tracker.gaps ≠ [] then some s.tracker.gaps else none
  | none => none

/-- `NackScheduler::on_nack_sent`. -/
def onNackSent (s : NackScheduler) (now : ℕ) : NackScheduler :=
  let s := { s with retryCount := s.retryCount + 1 }
  if s.retryCount ≥ maxRetries then s.reset
  else { s with backoff := s.backoff * 2, nextFlush := some (now + s.backoff * 2) }

/-- `NackScheduler::on_data_received`. -/
def onDataReceived (s : NackScheduler) (seq : ℕ) : NackScheduler :=
  let s := { s with tracker := s.tracker.markFilled (seq, seq + 1) }
  if s.tracker.gaps.isEmpty then s.reset else s

/-- `NackScheduler::mark_lost`. -/
def markLost (s : NackScheduler) (range : ℕ × ℕ) : NackScheduler :=
  let s := { s with tracker := s.tracker.markLost range }
  if s.tracker.gaps.isEmpty then s.reset else s

end NackScheduler

end Hdds.Reliability
