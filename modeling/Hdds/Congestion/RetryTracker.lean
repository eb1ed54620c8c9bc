import Mathlib
import Hdds.Foundations.Assoc
import Hdds.Congestion.NackCoalescer

/-! # Retry backoff

`congestion/retry_tracker.rs`: a `RetryTracker` counts, for each sequence number, the repairs
scheduled for it since it was last acknowledged, and gives the delay before the next one:
`base_ms` doubled per retry up to `max_ms`, plus a jitter. Past `max_retries` it gives none.

* `jitter_factor` is read only by `(delay_ms as f32 * jitter_factor) as u32`, the range of the
  jitter, which `RetryConfig.jitterRange` is as a function of the delay.
* `u32` arithmetic saturates where the code asks for it (`saturating_pow`, `saturating_mul`)
  and wraps where it does not (`delay_ms + jitter`), as a release build does.
* `Instant` is a count of nanoseconds passed as `now`; the `HashMap` of retry states is an
  `AList`.

A tracker never counts more than `max_retries` repairs for a sequence number (`Bounded`), and
the delay before jitter never shrinks from one retry to the next (`baseDelay_mono`).
-/

namespace Hdds.Congestion
open NackCoalescer (rangeInclusive)
set_option autoImplicit false

/-- `u32::MAX`. -/
def u32Max : ℕ := 2 ^ 32 - 1

/-- A `u32` result of `saturating_pow` or `saturating_mul`. -/
def satU32 (n : ℕ) : ℕ := min n u32Max

/-- `RetryConfig`. -/
structure RetryConfig where
  baseMs : ℕ
  maxMs : ℕ
  maxRetries : ℕ
  /-- `(delay_ms as f32 * jitter_factor) as u32`. -/
  jitterRange : ℕ → ℕ

/-- `RetryConfig::default()`, with `jitterRange` the range of its `jitter_factor` of `0.1`. -/
def RetryConfig.default (jitterRange : ℕ → ℕ) : RetryConfig := ⟨100, 5000, 10, jitterRange⟩

/-- `RetryConfig::with_max_retries`. -/
def RetryConfig.withMaxRetries (c : RetryConfig) (max : ℕ) : RetryConfig :=
  { c with maxRetries := max }

/-- `RetryState`. -/
structure RetryState where
  retryCount : ℕ
  lastRetry : ℕ
  firstNack : ℕ
deriving DecidableEq, Repr

/-- `RetryTrackerStats`; `{}` is `default()`. -/
structure RetryTrackerStats where
  retryRequests : ℕ := 0
  retriesScheduled : ℕ := 0
  retriesExceeded : ℕ := 0
  sequencesAcked : ℕ := 0
  sequencesPruned : ℕ := 0
deriving DecidableEq, Repr

/-- `RetryTracker`. -/
structure RetryTracker where
  config : RetryConfig
  retries : AList fun _ : ℤ => RetryState
  stats : RetryTrackerStats

namespace RetryTracker

/-- `RetryTracker::with_config`. -/
def withConfig (config : RetryConfig) : RetryTracker := ⟨config, ∅, {}⟩

/-- `base * 2^(retry_count - 1)`, saturating, capped at `max_ms`: the delay before jitter. -/
def baseDelay (config : RetryConfig) (retryCount : ℕ) : ℕ :=
  min (satU32 (config.baseMs * satU32 (2 ^ (retryCount - 1)))) config.maxMs

/-- `RetryTracker::calculate_delay`, in nanoseconds. -/
def calculateDelay (config : RetryConfig) (retryCount : ℕ) : ℕ :=
  let delayMs := baseDelay config retryCount
  let jitterRange := config.jitterRange delayMs
  let jitter := if jitterRange > 0 then delayMs % jitterRange else 0
  (delayMs + jitter) % 2 ^ 32 * 1000000

/-- `RetryTracker::next_retry`: the entry is created by `or_insert` even when it is past
`max_retries` at once. -/
def nextRetry (t : RetryTracker) (seq : ℤ) (now : ℕ) : RetryTracker × Option ℕ :=
  let stats := { t.stats with retryRequests := t.stats.retryRequests + 1 }
  let state := (t.retries.lookup seq).getD ⟨0, now, now⟩
  if state.retryCount ≥ t.config.maxRetries then
    ({ t with retries := t.retries.insert seq state,
              stats := { stats with retriesExceeded := stats.retriesExceeded + 1 } }, none)
  else
    let state := { state with retryCount := state.retryCount + 1, lastRetry := now }
    ({ t with retries := t.retries.insert seq state,
              stats := { stats with retriesScheduled := stats.retriesScheduled + 1 } },
      some (calculateDelay t.config state.retryCount))

/-- `RetryTracker::ack`. -/
def ack (t : RetryTracker) (seq : ℤ) : RetryTracker :=
  if seq ∈ t.retries then
    { t with retries := t.retries.erase seq,
             stats := { t.stats with sequencesAcked := t.stats.sequencesAcked + 1 } }
  else t

/-- `RetryTracker::ack_range`. -/
def ackRange (t : RetryTracker) (start stop : ℤ) : RetryTracker :=
  (rangeInclusive start stop).foldl ack t

/-- `RetryTracker::retry_count`. -/
def retryCount (t : RetryTracker) (seq : ℤ) : ℕ :=
  ((t.retries.lookup seq).map (·.retryCount)).getD 0

/-- `RetryTracker::is_exceeded`. -/
def isExceeded (t : RetryTracker) (seq : ℤ) : Bool :=
  ((t.retries.lookup seq).map fun s => decide (s.retryCount ≥ t.config.maxRetries)).getD false

/-- `RetryTracker::tracked_count`. -/
def trackedCount (t : RetryTracker) : ℕ := t.retries.keys.length

/-- `RetryTracker::prune_old`. -/
def pruneOld (t : RetryTracker) (maxAge now : ℕ) : RetryTracker :=
  let retries := t.retries.retain fun _ s => decide (now - s.firstNack < maxAge)
  { t with retries := retries,
           stats := { t.stats with sequencesPruned :=
             t.stats.sequencesPruned + (t.retries.keys.length - retries.keys.length) } }

/-- `RetryTracker::clear`. -/
def clear (t : RetryTracker) : RetryTracker := { t with retries := ∅ }

/-! ## What the calls do to the counts -/

/-- The state `next_retry` starts from: the one tracked, or a fresh one. -/
def stateOf (t : RetryTracker) (seq : ℤ) (now : ℕ) : RetryState :=
  (t.retries.lookup seq).getD ⟨0, now, now⟩

theorem retryCount_eq_stateOf (t : RetryTracker) (seq : ℤ) (now : ℕ) :
    t.retryCount seq = (t.stateOf seq now).retryCount := by
  unfold retryCount stateOf
  cases t.retries.lookup seq <;> rfl

theorem nextRetry_of_ge {t : RetryTracker} {seq : ℤ} {now : ℕ}
    (h : t.retryCount seq ≥ t.config.maxRetries) :
    t.nextRetry seq now =
      ({ t with retries := t.retries.insert seq (t.stateOf seq now),
                stats := { t.stats with retryRequests := t.stats.retryRequests + 1,
                                        retriesExceeded := t.stats.retriesExceeded + 1 } },
        none) := by
  rw [retryCount_eq_stateOf t seq now] at h
  unfold nextRetry stateOf at *
  rw [if_pos h]

theorem nextRetry_of_lt {t : RetryTracker} {seq : ℤ} {now : ℕ}
    (h : t.retryCount seq < t.config.maxRetries) :
    t.nextRetry seq now =
      ({ t with retries := t.retries.insert seq
                  { t.stateOf seq now with retryCount := t.retryCount seq + 1, lastRetry := now },
                stats := { t.stats with retryRequests := t.stats.retryRequests + 1,
                                        retriesScheduled := t.stats.retriesScheduled + 1 } },
        some (calculateDelay t.config (t.retryCount seq + 1))) := by
  rw [retryCount_eq_stateOf t seq now] at h ⊢
  unfold nextRetry stateOf at *
  rw [if_neg (Nat.not_le.mpr h)]

@[simp] theorem nextRetry_config (t : RetryTracker) (seq : ℤ) (now : ℕ) :
    (t.nextRetry seq now).1.config = t.config := by
  by_cases h : t.retryCount seq ≥ t.config.maxRetries
  · rw [nextRetry_of_ge h]
  · rw [nextRetry_of_lt (Nat.lt_of_not_le h)]

@[simp] theorem ack_config (t : RetryTracker) (seq : ℤ) : (t.ack seq).config = t.config := by
  unfold ack; split <;> rfl

@[simp] theorem ackRange_config (t : RetryTracker) (start stop : ℤ) :
    (t.ackRange start stop).config = t.config := by
  unfold ackRange
  induction rangeInclusive start stop generalizing t with
  | nil => rfl
  | cons seq rest ih => rw [List.foldl_cons, ih, ack_config]

@[simp] theorem pruneOld_config (t : RetryTracker) (maxAge now : ℕ) :
    (t.pruneOld maxAge now).config = t.config := rfl

@[simp] theorem clear_config (t : RetryTracker) : t.clear.config = t.config := rfl

/-- `next_retry` counts one more repair unless the count is at `max_retries`, and then gives the
delay for the new count. -/
theorem nextRetry_snd (t : RetryTracker) (seq : ℤ) (now : ℕ) :
    (t.nextRetry seq now).2 =
      if t.retryCount seq ≥ t.config.maxRetries then none
      else some (calculateDelay t.config (t.retryCount seq + 1)) := by
  split
  · next h => rw [nextRetry_of_ge h]
  · next h => rw [nextRetry_of_lt (Nat.lt_of_not_le h)]

theorem retryCount_insert (t : RetryTracker) (seq seq' : ℤ) (state : RetryState) :
    ({ t with retries := t.retries.insert seq state } : RetryTracker).retryCount seq' =
      if seq' = seq then state.retryCount else t.retryCount seq' := by
  unfold retryCount
  split
  · next hseq => rw [hseq, AList.lookup_insert]; rfl
  · next hseq => rw [AList.lookup_insert_ne hseq]

theorem retryCount_nextRetry (t : RetryTracker) (seq seq' : ℤ) (now : ℕ) :
    (t.nextRetry seq now).1.retryCount seq' =
      if seq' = seq ∧ t.retryCount seq < t.config.maxRetries then t.retryCount seq + 1
      else t.retryCount seq' := by
  by_cases h : t.retryCount seq < t.config.maxRetries
  · rw [nextRetry_of_lt h]
    exact (retryCount_insert _ _ _ _).trans (by by_cases hseq : seq' = seq <;> simp [hseq, h])
  · rw [nextRetry_of_ge (Nat.le_of_not_lt h)]
    refine (retryCount_insert _ _ _ _).trans ?_
    by_cases hseq : seq' = seq
    · simp [hseq, h, ← retryCount_eq_stateOf]
    · simp [hseq]

theorem retryCount_ack (t : RetryTracker) (seq seq' : ℤ) :
    (t.ack seq).retryCount seq' = if seq' = seq then 0 else t.retryCount seq' := by
  unfold ack
  split
  · unfold retryCount
    split
    · next hseq => rw [hseq, AList.lookup_erase]; rfl
    · next hseq => rw [AList.lookup_erase_ne hseq]
  · next hmem =>
    split
    · next hseq =>
      unfold retryCount
      rw [hseq, AList.lookup_eq_none.mpr hmem]
      rfl
    · rfl

theorem retryCount_ackRange (t : RetryTracker) (start stop seq : ℤ) :
    (t.ackRange start stop).retryCount seq =
      if start ≤ seq ∧ seq ≤ stop then 0 else t.retryCount seq := by
  have hfold : ∀ (seqs : List ℤ) (t : RetryTracker), (seqs.foldl ack t).retryCount seq =
      if seq ∈ seqs then 0 else t.retryCount seq := by
    intro seqs
    induction seqs with
    | nil => simp
    | cons s seqs ih =>
      intro t
      rw [List.foldl_cons, ih, retryCount_ack]
      by_cases hs : seq = s <;> simp [hs]
  have hmem : seq ∈ rangeInclusive start stop ↔ start ≤ seq ∧ seq ≤ stop := by
    simp only [rangeInclusive, List.mem_map, List.mem_range]
    constructor
    · rintro ⟨i, hi, rfl⟩
      omega
    · rintro ⟨hlo, hhi⟩
      exact ⟨(seq - start).toNat, by omega, by omega⟩
  rw [ackRange, hfold]
  exact if_congr hmem rfl rfl

theorem retryCount_pruneOld_le (t : RetryTracker) (maxAge now : ℕ) (seq : ℤ) :
    (t.pruneOld maxAge now).retryCount seq ≤ t.retryCount seq := by
  unfold pruneOld retryCount
  rw [AList.lookup_retain]
  cases t.retries.lookup seq <;> simp only [Option.filter_none, Option.map_none, Option.getD_none,
    le_refl, Option.filter_some]
  split <;> simp

@[simp] theorem retryCount_clear (t : RetryTracker) (seq : ℤ) : t.clear.retryCount seq = 0 := rfl

/-! ## Never more than `max_retries` -/

/-- No count is past `max_retries`. -/
def Bounded (t : RetryTracker) : Prop := ∀ seq, t.retryCount seq ≤ t.config.maxRetries

theorem bounded_withConfig (config : RetryConfig) : (withConfig config).Bounded :=
  fun _ => Nat.zero_le _

theorem Bounded.nextRetry {t : RetryTracker} (h : t.Bounded) (seq : ℤ) (now : ℕ) :
    (t.nextRetry seq now).1.Bounded := by
  intro seq'
  rw [retryCount_nextRetry, nextRetry_config]
  split
  · next hlt => omega
  · exact h seq'

theorem Bounded.ack {t : RetryTracker} (h : t.Bounded) (seq : ℤ) : (t.ack seq).Bounded := by
  intro seq'
  rw [retryCount_ack, ack_config]
  split
  · exact Nat.zero_le _
  · exact h seq'

theorem Bounded.ackRange {t : RetryTracker} (h : t.Bounded) (start stop : ℤ) :
    (t.ackRange start stop).Bounded := by
  intro seq
  rw [retryCount_ackRange, ackRange_config]
  split
  · exact Nat.zero_le _
  · exact h seq

theorem Bounded.pruneOld {t : RetryTracker} (h : t.Bounded) (maxAge now : ℕ) :
    (t.pruneOld maxAge now).Bounded := by
  intro seq
  exact (retryCount_pruneOld_le t maxAge now seq).trans (h seq)

theorem bounded_clear (t : RetryTracker) : t.clear.Bounded :=
  fun _ => Nat.zero_le _

/-! ## The backoff -/

theorem satU32_mono {m n : ℕ} (h : m ≤ n) : satU32 m ≤ satU32 n := min_le_min_right _ h

/-- The delay before jitter never shrinks from one retry to the next. -/
theorem baseDelay_mono (config : RetryConfig) {k k' : ℕ} (h : k ≤ k') :
    baseDelay config k ≤ baseDelay config k' := by
  have hpow : 2 ^ (k - 1) ≤ 2 ^ (k' - 1) := Nat.pow_le_pow_right (by norm_num) (by omega)
  exact min_le_min_right _
    (satU32_mono (Nat.mul_le_mul_left _ (satU32_mono hpow)))

theorem baseDelay_le_maxMs (config : RetryConfig) (k : ℕ) : baseDelay config k ≤ config.maxMs :=
  min_le_right _ _

/-- The jitter adds less than its range, and nothing when the range is zero. -/
theorem calculateDelay_lt (config : RetryConfig) (k : ℕ)
    (h : baseDelay config k + config.jitterRange (baseDelay config k) < 2 ^ 32) :
    baseDelay config k * 1000000 ≤ calculateDelay config k ∧
      calculateDelay config k <
        (baseDelay config k + max 1 (config.jitterRange (baseDelay config k))) * 1000000 := by
  unfold calculateDelay
  dsimp only
  have hmax := le_max_right 1 (config.jitterRange (baseDelay config k))
  have hone := le_max_left 1 (config.jitterRange (baseDelay config k))
  generalize max 1 (config.jitterRange (baseDelay config k)) = m at hmax hone ⊢
  split
  · next hpos =>
    have hjitter := Nat.mod_lt (baseDelay config k) hpos
    generalize baseDelay config k % config.jitterRange (baseDelay config k) = j at hjitter ⊢
    rw [Nat.mod_eq_of_lt (by omega)]
    constructor <;> omega
  · rw [Nat.add_zero, Nat.mod_eq_of_lt (by omega)]
    constructor <;> omega

end RetryTracker

/-! ## Scheduled repairs -/

/-- `RepairRequest`. -/
structure RepairRequest where
  sequence : ℤ
  scheduledAt : ℕ
  retryAttempt : ℕ
deriving DecidableEq, Repr

namespace RepairRequest

/-- `RepairRequest::new`: due `delay` nanoseconds from now. -/
def new (sequence : ℤ) (delay retryAttempt now : ℕ) : RepairRequest :=
  ⟨sequence, now + delay, retryAttempt⟩

/-- `RepairRequest::is_ready`. -/
def isReady (r : RepairRequest) (now : ℕ) : Bool := decide (now ≥ r.scheduledAt)

/-- `RepairRequest::time_until_ready`. -/
def timeUntilReady (r : RepairRequest) (now : ℕ) : ℕ :=
  if now ≥ r.scheduledAt then 0 else r.scheduledAt - now

/-- `RepairRequest::estimated_size`. -/
def estimatedSize (_ : RepairRequest) : ℕ := 120

end RepairRequest

end Hdds.Congestion
