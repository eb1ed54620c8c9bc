import Mathlib
import Hdds.Foundations.Machine

/-! # NACK coalescing

`congestion/nack_coalescer.rs`: a `NackCoalescer` gathers the sequence numbers that readers NACK
into one pending set and hands the set out as a batch, in increasing order, once it holds
`max_batch_size` of them or `coalesce_delay` has passed since its first NACK.

* `Instant` is a count of nanoseconds read by each call as its argument `now`, and
  `first.elapsed()` is `now - first`.
* The `HashSet` of pending sequence numbers is a `Finset ℤ`; `drain().collect()` followed by
  `sort_unstable()` is `Finset.sort`.

The timer runs exactly while the batch is not empty (`Timed`), so `flush_if_ready` hands out a
batch at any time `coalesce_delay` after its first NACK (`shouldFlush_of_delay`). A flush returns
the sequence numbers NACKed since the last one, each once and in increasing order (`flush_adds`).
Over a run, every NACK is counted once: as a duplicate of a pending one, as flushed, or as still
pending (`Counted`), and `clear` is the one call that drops pending NACKs uncounted.
-/

namespace Hdds.Congestion
open Machine
set_option autoImplicit false

/-- `NackCoalescerStats`; `{}` is `default()`. -/
structure NackCoalescerStats where
  nacksReceived : ℕ := 0
  flushes : ℕ := 0
  sequencesFlushed : ℕ := 0
  duplicatesCoalesced : ℕ := 0
deriving DecidableEq, Repr

/-- `NackCoalescer`, with the clock in nanoseconds. -/
structure NackCoalescer where
  pending : Finset ℤ
  coalesceDelay : ℕ
  firstNackAt : Option ℕ
  maxBatchSize : ℕ
  stats : NackCoalescerStats
deriving DecidableEq

namespace NackCoalescer

/-- `NackCoalescer::with_max_batch`. -/
def withMaxBatch (coalesceDelay maxBatchSize : ℕ) : NackCoalescer :=
  ⟨∅, coalesceDelay, none, maxBatchSize, {}⟩

/-- `NackCoalescer::new`. -/
def new (coalesceDelay : ℕ) : NackCoalescer := withMaxBatch coalesceDelay 100

/-- The body of the loops of `add` and `add_range`: count the NACK, and keep its sequence
number unless it is pending already. -/
def record (c : NackCoalescer) (seq : ℤ) : NackCoalescer :=
  let stats := { c.stats with nacksReceived := c.stats.nacksReceived + 1 }
  if seq ∈ c.pending then
    { c with stats := { stats with duplicatesCoalesced := stats.duplicatesCoalesced + 1 } }
  else { c with pending := insert seq c.pending, stats := stats }

/-- `if self.first_nack_at.is_none() { self.first_nack_at = Some(Instant::now()) }`. -/
def startTimer (c : NackCoalescer) (now : ℕ) : NackCoalescer :=
  if c.firstNackAt.isNone then { c with firstNackAt := some now } else c

/-- `NackCoalescer::add`. -/
def add (c : NackCoalescer) (gaps : List ℤ) (now : ℕ) : NackCoalescer :=
  if gaps.isEmpty then c else gaps.foldl record (c.startTimer now)

/-- `NackCoalescer::add_one`. -/
def addOne (c : NackCoalescer) (seq : ℤ) (now : ℕ) : NackCoalescer := c.add [seq] now

/-- `start..=end`. -/
def rangeInclusive (start stop : ℤ) : List ℤ :=
  (List.range (stop - start + 1).toNat).map (fun i : ℕ => start + (i : ℤ))

/-- `NackCoalescer::add_range`. -/
def addRange (c : NackCoalescer) (start stop : ℤ) (now : ℕ) : NackCoalescer :=
  if start > stop then c else (rangeInclusive start stop).foldl record (c.startTimer now)

/-- `NackCoalescer::should_flush`. -/
def shouldFlush (c : NackCoalescer) (now : ℕ) : Bool :=
  if c.pending = ∅ then false
  else if c.pending.card ≥ c.maxBatchSize then true
  else
    match c.firstNackAt with
    | some first => decide (now - first ≥ c.coalesceDelay)
    | none => false

/-- `NackCoalescer::flush`: the pending sequence numbers in increasing order. -/
def flush (c : NackCoalescer) : NackCoalescer × Option (List ℤ) :=
  if c.pending = ∅ then (c, none)
  else
    let gaps := c.pending.sort
    ({ c with pending := ∅, firstNackAt := none,
               stats := { c.stats with flushes := c.stats.flushes + 1,
                                       sequencesFlushed := c.stats.sequencesFlushed + gaps.length } },
      some gaps)

/-- `NackCoalescer::flush_if_ready`. -/
def flushIfReady (c : NackCoalescer) (now : ℕ) : NackCoalescer × Option (List ℤ) :=
  if !c.shouldFlush now then (c, none) else c.flush

/-- `NackCoalescer::clear`. -/
def clear (c : NackCoalescer) : NackCoalescer := { c with pending := ∅, firstNackAt := none }

/-! ## What one call does to the batch -/

@[simp] theorem record_pending (c : NackCoalescer) (seq : ℤ) :
    (c.record seq).pending = insert seq c.pending := by
  unfold record
  split
  · next h => exact (Finset.insert_eq_of_mem h).symm
  · rfl

@[simp] theorem record_firstNackAt (c : NackCoalescer) (seq : ℤ) :
    (c.record seq).firstNackAt = c.firstNackAt := by
  unfold record; split <;> rfl

@[simp] theorem record_coalesceDelay (c : NackCoalescer) (seq : ℤ) :
    (c.record seq).coalesceDelay = c.coalesceDelay := by
  unfold record; split <;> rfl

@[simp] theorem record_maxBatchSize (c : NackCoalescer) (seq : ℤ) :
    (c.record seq).maxBatchSize = c.maxBatchSize := by
  unfold record; split <;> rfl

theorem foldl_record_pending (gaps : List ℤ) (c : NackCoalescer) :
    (gaps.foldl record c).pending = c.pending ∪ gaps.toFinset := by
  induction gaps generalizing c with
  | nil => simp
  | cons seq gaps ih =>
    rw [List.foldl_cons, ih, record_pending, List.toFinset_cons, Finset.union_insert,
      Finset.insert_union]

theorem foldl_record_firstNackAt (gaps : List ℤ) (c : NackCoalescer) :
    (gaps.foldl record c).firstNackAt = c.firstNackAt := by
  induction gaps generalizing c with
  | nil => rfl
  | cons seq gaps ih => rw [List.foldl_cons, ih, record_firstNackAt]

theorem startTimer_firstNackAt_ne_none (c : NackCoalescer) (now : ℕ) :
    (c.startTimer now).firstNackAt ≠ none := by
  unfold startTimer
  split
  · exact Option.some_ne_none now
  · next h => simpa using h

@[simp] theorem startTimer_pending (c : NackCoalescer) (now : ℕ) :
    (c.startTimer now).pending = c.pending := by
  unfold startTimer; split <;> rfl

theorem rangeInclusive_ne_nil {start stop : ℤ} (h : ¬start > stop) :
    rangeInclusive start stop ≠ [] := by
  rw [rangeInclusive, Ne, List.map_eq_nil_iff, List.range_eq_nil]
  omega

theorem rangeInclusive_of_gt {start stop : ℤ} (h : start > stop) : rangeInclusive start stop = [] := by
  rw [rangeInclusive, List.map_eq_nil_iff, List.range_eq_nil]
  omega

/-- `add_range` is `add` of the range: the range of a call that does anything is not empty. -/
theorem addRange_eq_add (c : NackCoalescer) (start stop : ℤ) (now : ℕ) :
    c.addRange start stop now = c.add (rangeInclusive start stop) now := by
  unfold NackCoalescer.addRange NackCoalescer.add
  by_cases h : start > stop
  · rw [if_pos h, rangeInclusive_of_gt h]
    rfl
  · rw [if_neg h, if_neg (by simpa using rangeInclusive_ne_nil h)]

theorem add_pending (c : NackCoalescer) (gaps : List ℤ) (now : ℕ) :
    (c.add gaps now).pending = c.pending ∪ gaps.toFinset := by
  unfold NackCoalescer.add
  split
  · next h => simp [List.isEmpty_iff.mp h]
  · rw [foldl_record_pending, startTimer_pending]

@[simp] theorem flush_pending (c : NackCoalescer) : c.flush.1.pending = ∅ := by
  unfold flush
  split
  · next h => exact h
  · rfl

@[simp] theorem flush_snd (c : NackCoalescer) :
    c.flush.2 = if c.pending = ∅ then none else some c.pending.sort := by
  unfold flush; split <;> rfl

@[simp] theorem flush_firstNackAt (c : NackCoalescer) :
    c.flush.1.firstNackAt = if c.pending = ∅ then c.firstNackAt else none := by
  unfold flush; split <;> rfl

/-- What a flush adds to the flushed count is what was pending. -/
theorem flush_counts (c : NackCoalescer) :
    c.flush.1.stats.nacksReceived = c.stats.nacksReceived ∧
      c.flush.1.stats.duplicatesCoalesced = c.stats.duplicatesCoalesced ∧
      c.flush.1.stats.sequencesFlushed = c.stats.sequencesFlushed + c.pending.card := by
  unfold flush
  split
  · next h => simp [h]
  · exact ⟨rfl, rfl, by simp⟩

/-! ## The timer runs exactly while the batch is not empty -/

/-- The timer is set exactly when some NACK is pending. -/
def Timed (c : NackCoalescer) : Prop := c.firstNackAt = none ↔ c.pending = ∅

theorem timed_withMaxBatch (coalesceDelay maxBatchSize : ℕ) :
    (withMaxBatch coalesceDelay maxBatchSize).Timed :=
  iff_of_true rfl rfl

theorem Timed.add {c : NackCoalescer} (h : c.Timed) (gaps : List ℤ) (now : ℕ) :
    (c.add gaps now).Timed := by
  unfold NackCoalescer.add
  split
  · exact h
  · next hgaps =>
    -- a nonempty `add` starts the timer and leaves something pending
    obtain ⟨seq, hseq⟩ := List.exists_mem_of_ne_nil gaps (by simpa using hgaps)
    have hpending : seq ∈ (gaps.foldl NackCoalescer.record (c.startTimer now)).pending := by
      rw [foldl_record_pending]
      exact Finset.mem_union_right _ (List.mem_toFinset.mpr hseq)
    exact iff_of_false
      (by rw [foldl_record_firstNackAt]; exact startTimer_firstNackAt_ne_none c now)
      (Finset.ne_empty_of_mem hpending)

theorem Timed.addRange {c : NackCoalescer} (h : c.Timed) (start stop : ℤ) (now : ℕ) :
    (c.addRange start stop now).Timed := by
  rw [addRange_eq_add]
  exact h.add _ now

theorem Timed.flush {c : NackCoalescer} (h : c.Timed) : c.flush.1.Timed := by
  unfold Timed
  rw [flush_pending, flush_firstNackAt]
  split
  · next hc => exact iff_of_true (h.mpr hc) rfl
  · exact iff_of_true rfl rfl

theorem Timed.flushIfReady {c : NackCoalescer} (h : c.Timed) (now : ℕ) :
    (c.flushIfReady now).1.Timed := by
  unfold NackCoalescer.flushIfReady
  split
  · exact h
  · exact h.flush

theorem timed_clear (c : NackCoalescer) : c.clear.Timed := iff_of_true rfl rfl

/-- A batch whose first NACK came `coalesce_delay` ago is flushed by `flush_if_ready`. -/
theorem shouldFlush_of_delay {c : NackCoalescer} (h : c.Timed) (hne : c.pending ≠ ∅) :
    ∃ first, c.firstNackAt = some first ∧
      ∀ now, first + c.coalesceDelay ≤ now → c.shouldFlush now = true := by
  obtain ⟨first, hfirst⟩ := Option.ne_none_iff_exists'.mp (mt h.mp hne)
  refine ⟨first, hfirst, fun now hnow => ?_⟩
  unfold shouldFlush
  rw [if_neg hne]
  split
  · rfl
  · rw [hfirst]
    exact decide_eq_true (by omega)

/-! ## A flush returns what was NACKed since the last one -/

theorem foldl_add_pending (adds : List (List ℤ × ℕ)) (c : NackCoalescer) :
    (adds.foldl (fun c a => c.add a.1 a.2) c).pending =
      c.pending ∪ (adds.flatMap Prod.fst).toFinset := by
  induction adds generalizing c with
  | nil => simp
  | cons a adds ih =>
    rw [List.foldl_cons, ih, add_pending, List.flatMap_cons, List.toFinset_append,
      Finset.union_assoc]

/-- A flush after a series of `add` calls on an empty batch returns every sequence number they
NACKed, each once and in increasing order. -/
theorem flush_adds (c : NackCoalescer) (hc : c.pending = ∅) (adds : List (List ℤ × ℕ)) :
    (adds.foldl (fun c a => c.add a.1 a.2) c).flush.2 =
      if (adds.flatMap Prod.fst).toFinset = ∅ then none
      else some (adds.flatMap Prod.fst).toFinset.sort := by
  rw [flush_snd, foldl_add_pending, hc, Finset.empty_union]

/-! ## Every NACK is counted once -/

/-- Every NACK received is a duplicate of a pending one, flushed, or still pending. -/
def Counted (c : NackCoalescer) : Prop :=
  c.stats.nacksReceived = c.stats.duplicatesCoalesced + c.stats.sequencesFlushed + c.pending.card

theorem Counted.record {c : NackCoalescer} (h : c.Counted) (seq : ℤ) :
    (c.record seq).Counted := by
  unfold Counted NackCoalescer.record at *
  split
  · dsimp only
    omega
  · next hseq =>
    dsimp only
    rw [Finset.card_insert_of_notMem hseq]
    omega

theorem Counted.foldl_record {c : NackCoalescer} (h : c.Counted) (gaps : List ℤ) :
    (gaps.foldl NackCoalescer.record c).Counted := by
  induction gaps generalizing c with
  | nil => exact h
  | cons seq gaps ih => exact ih (h.record seq)

theorem Counted.startTimer {c : NackCoalescer} (h : c.Counted) (now : ℕ) :
    (c.startTimer now).Counted := by
  unfold NackCoalescer.startTimer; split <;> exact h

theorem Counted.add {c : NackCoalescer} (h : c.Counted) (gaps : List ℤ) (now : ℕ) :
    (c.add gaps now).Counted := by
  unfold NackCoalescer.add
  split
  · exact h
  · exact (h.startTimer now).foldl_record gaps

theorem Counted.flush {c : NackCoalescer} (h : c.Counted) : c.flush.1.Counted := by
  obtain ⟨hreceived, hduplicates, hflushed⟩ := flush_counts c
  unfold Counted at *
  rw [hreceived, hduplicates, hflushed, flush_pending, Finset.card_empty]
  omega

theorem Counted.flushIfReady {c : NackCoalescer} (h : c.Counted) (now : ℕ) :
    (c.flushIfReady now).1.Counted := by
  unfold NackCoalescer.flushIfReady
  split
  · exact h
  · exact h.flush

/-! ## Runs -/

/-- The calls of `NackCoalescer` that change its batch. -/
inductive NackEvent
  | add (gaps : List ℤ) (now : ℕ)
  | addRange (start stop : ℤ) (now : ℕ)
  | flushIfReady (now : ℕ)
  | flush
  | clear
deriving DecidableEq, Repr

/-- The sequence numbers an event NACKs. -/
def NackEvent.nacked : NackEvent → List ℤ
  | .add gaps _ => gaps
  | .addRange start stop _ => rangeInclusive start stop
  | .flushIfReady _ => []
  | .flush => []
  | .clear => []

/-- One call, and the batch it hands out. -/
def step (c : NackCoalescer) : NackEvent → NackCoalescer × List (List ℤ)
  | .add gaps now => (c.add gaps now, [])
  | .addRange start stop now => (c.addRange start stop now, [])
  | .flushIfReady now => ((c.flushIfReady now).1, (c.flushIfReady now).2.toList)
  | .flush => (c.flush.1, c.flush.2.toList)
  | .clear => (c.clear, [])

theorem Timed.step {c : NackCoalescer} (h : c.Timed) (e : NackEvent) : (c.step e).1.Timed := by
  cases e with
  | add gaps now => exact h.add gaps now
  | addRange start stop now => exact h.addRange start stop now
  | flushIfReady now => exact h.flushIfReady now
  | flush => exact h.flush
  | clear => exact timed_clear c

theorem Counted.step {c : NackCoalescer} (h : c.Counted) {e : NackEvent} (he : e ≠ .clear) :
    (c.step e).1.Counted := by
  cases e with
  | add gaps now => exact h.add gaps now
  | addRange start stop now =>
    show (c.addRange start stop now).Counted
    rw [addRange_eq_add]
    exact h.add _ now
  | flushIfReady now => exact h.flushIfReady now
  | flush => exact h.flush
  | clear => exact absurd rfl he

/-- What a flush hands out, with what it leaves pending, is what was pending. -/
theorem flush_pending_union (c : NackCoalescer) :
    c.flush.1.pending ∪ c.flush.2.toList.flatten.toFinset = c.pending := by
  rw [flush_pending, Finset.empty_union, flush_snd]
  split
  · next h => simp [h]
  · ext seq
    simp

/-- A step keeps, pending or handed out, what was pending and what it NACKed, unless it is a
`clear`. -/
theorem step_pending {c : NackCoalescer} {e : NackEvent} (he : e ≠ .clear) :
    (c.step e).1.pending ∪ ((c.step e).2.flatten).toFinset = c.pending ∪ e.nacked.toFinset := by
  cases e with
  | add gaps now => simp [NackCoalescer.step, add_pending, NackEvent.nacked]
  | addRange start stop now =>
    simp [NackCoalescer.step, addRange_eq_add, add_pending, NackEvent.nacked]
  | flushIfReady now =>
    show (c.flushIfReady now).1.pending ∪ (c.flushIfReady now).2.toList.flatten.toFinset = _
    rw [NackEvent.nacked, List.toFinset_nil, Finset.union_empty]
    unfold NackCoalescer.flushIfReady
    split
    · simp
    · exact flush_pending_union c
  | flush =>
    rw [NackEvent.nacked, List.toFinset_nil, Finset.union_empty]
    exact flush_pending_union c
  | clear => exact absurd rfl he

theorem sortedLT_of_mem_flush (c : NackCoalescer) :
    ∀ batch ∈ c.flush.2.toList, batch.SortedLT := by
  intro batch hbatch
  rw [flush_snd] at hbatch
  split at hbatch
  · simp at hbatch
  · rw [Option.toList_some, List.mem_singleton] at hbatch
    exact hbatch ▸ Finset.sortedLT_sort _

theorem sortedLT_of_mem_step (c : NackCoalescer) (e : NackEvent) :
    ∀ batch ∈ (c.step e).2, batch.SortedLT := by
  cases e with
  | flushIfReady now =>
    show ∀ batch ∈ (c.flushIfReady now).2.toList, batch.SortedLT
    unfold NackCoalescer.flushIfReady
    split
    · simp
    · exact sortedLT_of_mem_flush c
  | flush => exact sortedLT_of_mem_flush c
  | add | addRange | clear => simp [NackCoalescer.step]

theorem counted_withMaxBatch (coalesceDelay maxBatchSize : ℕ) :
    (withMaxBatch coalesceDelay maxBatchSize).Counted := rfl

theorem run_pending (c : NackCoalescer) (es : List NackEvent) (hes : ∀ e ∈ es, e ≠ .clear) :
    (run step c es).1.pending ∪ (run step c es).2.flatten.toFinset =
      c.pending ∪ (es.flatMap NackEvent.nacked).toFinset := by
  induction es generalizing c with
  | nil => simp
  | cons e es ih =>
    have he : e ≠ .clear := hes e List.mem_cons_self
    have hrest := ih (c.step e).1 (fun e' h => hes e' (List.mem_cons_of_mem e h))
    -- the step's batch joins what the rest of the run keeps
    calc (run step c (e :: es)).1.pending ∪ (run step c (e :: es)).2.flatten.toFinset
        = ((run step (c.step e).1 es).1.pending ∪ (run step (c.step e).1 es).2.flatten.toFinset) ∪
            (c.step e).2.flatten.toFinset := by
          rw [run_cons, List.flatten_append, List.toFinset_append]
          ac_rfl
      _ = ((c.step e).1.pending ∪ (c.step e).2.flatten.toFinset) ∪
            (es.flatMap NackEvent.nacked).toFinset := by
          rw [hrest]
          ac_rfl
      _ = c.pending ∪ ((e :: es).flatMap NackEvent.nacked).toFinset := by
          rw [step_pending he, List.flatMap_cons, List.toFinset_append, Finset.union_assoc]

/-- Over a run without `clear`, no NACK is lost: every sequence number NACKed is handed out in a
batch or still pending; each batch is strictly increasing, so without a duplicate; and the
statistics count every NACK once. The timer runs exactly while the batch is not empty, with or
without `clear`. -/
theorem coalescer_run_keeps_every_nack (c : NackCoalescer) (hcounted : c.Counted)
    (htimed : c.Timed) (es : List NackEvent) (hes : ∀ e ∈ es, e ≠ .clear) :
    c.pending ∪ (es.flatMap NackEvent.nacked).toFinset ⊆
        (run step c es).1.pending ∪ (run step c es).2.flatten.toFinset ∧
      (∀ batch ∈ (run step c es).2, batch.SortedLT) ∧
      (run step c es).1.Counted ∧ (run step c es).1.Timed := by
  refine ⟨(run_pending c es hes).symm.subset, ?_, ?_, ?_⟩
  · exact run_outputs step (fun _ => True) List.SortedLT (fun _ _ _ => trivial)
      (fun s e _ => sortedLT_of_mem_step s e) c es trivial
  · exact run_invariant_on step Counted (· ≠ .clear) (fun _ _ he h => h.step he) c es hes hcounted
  · exact run_invariant step Timed (fun _ e h => h.step e) c es htimed

theorem coalescer_run_keeps_every_nack_of_two_nacks :
    (withMaxBatch 15000000 100).Counted ∧ (withMaxBatch 15000000 100).Timed ∧
      (∀ e ∈ [NackEvent.add [5, 3] 0, .add [3] 1, .flush], e ≠ .clear) ∧
      ((withMaxBatch 15000000 100).pending ∪
          ([NackEvent.add [5, 3] 0, .add [3] 1, .flush].flatMap NackEvent.nacked).toFinset ⊆
        (run step (withMaxBatch 15000000 100) [.add [5, 3] 0, .add [3] 1, .flush]).1.pending ∪
          (run step (withMaxBatch 15000000 100) [.add [5, 3] 0, .add [3] 1, .flush]).2.flatten.toFinset ∧
        (∀ batch ∈ (run step (withMaxBatch 15000000 100) [.add [5, 3] 0, .add [3] 1, .flush]).2,
          batch.SortedLT) ∧
        (run step (withMaxBatch 15000000 100) [.add [5, 3] 0, .add [3] 1, .flush]).1.Counted ∧
        (run step (withMaxBatch 15000000 100) [.add [5, 3] 0, .add [3] 1, .flush]).1.Timed) :=
  ⟨counted_withMaxBatch 15000000 100, timed_withMaxBatch 15000000 100, by decide,
    coalescer_run_keeps_every_nack _ (counted_withMaxBatch 15000000 100)
      (timed_withMaxBatch 15000000 100) _ (by decide)⟩

end NackCoalescer

end Hdds.Congestion
