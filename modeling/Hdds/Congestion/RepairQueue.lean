import Mathlib
import Hdds.Foundations.Machine
import Hdds.Foundations.Positions
import Hdds.Congestion.NackCoalescer
import Hdds.Congestion.RetryTracker

/-! # Repair queue

`congestion/repair_queue.rs`: a `RepairQueue` takes the sequence numbers readers NACK, batches
them in a `NackCoalescer`, asks a `RetryTracker` for the backoff of each, and keeps the repairs
in a queue ordered by the time they are due. `try_dequeue` hands out the first repair once it is
due and the repair budget of the current one-second window allows its 120 bytes.

* `budget_ratio` is read only by `(total_budget as f32 * ratio) as u64`, the repair budget of a
  window, which `RepairQueueConfig.repairCap` is as a function of the total budget.
* Each call reads the clock once, as its argument `now` in nanoseconds; the `VecDeque` is a list.

Over every run from a new queue the queue stays ordered by due time and within
`max_queue_size`, and no retry count passes `max_retries` (`Inv`). So `try_dequeue` hands out
the earliest due repair and waits only when none is due. Within one budget window the bytes it
hands out never pass the window's budget, and a sequence number is handed out at most
`max_retries` times until it is acknowledged. A repair dropped for a full queue still uses up a
retry: a sequence NACKed `max_retries` times while the queue is full is never repaired.
-/

namespace Hdds.Congestion
open Machine Positions
set_option autoImplicit false

/-- `RepairQueueConfig`. -/
structure RepairQueueConfig where
  /-- `(total_budget as f32 * budget_ratio) as u64`. -/
  repairCap : ℕ → ℕ
  coalesceDelay : ℕ
  maxBatchSize : ℕ
  retryConfig : RetryConfig
  maxQueueSize : ℕ

/-- `RepairQueueConfig::default()`: `repairCap` and `jitterRange` are what its `budget_ratio` of
`0.3` and `jitter_factor` of `0.1` make of a total budget and of a delay. -/
def RepairQueueConfig.default (repairCap jitterRange : ℕ → ℕ) : RepairQueueConfig :=
  ⟨repairCap, 15000000, 100, RetryConfig.default jitterRange, 500⟩

/-- `BudgetWindow`. -/
structure BudgetWindow where
  bytesUsed : ℕ
  totalBudget : ℕ
  windowStart : ℕ
  windowDuration : ℕ
deriving DecidableEq, Repr

namespace BudgetWindow

/-- `BudgetWindow::default()`. -/
def default (now : ℕ) : BudgetWindow := ⟨0, 100000, now, 1000000000⟩

/-- `BudgetWindow::maybe_reset`. -/
def maybeReset (w : BudgetWindow) (now : ℕ) : BudgetWindow :=
  if now - w.windowStart ≥ w.windowDuration then { w with bytesUsed := 0, windowStart := now }
  else w

/-- `BudgetWindow::has_budget`. -/
def hasBudget (w : BudgetWindow) (size : ℕ) (repairCap : ℕ → ℕ) (now : ℕ) : Bool × BudgetWindow :=
  let w := w.maybeReset now
  (decide (w.bytesUsed + size ≤ repairCap w.totalBudget), w)

/-- `BudgetWindow::consume`. -/
def consume (w : BudgetWindow) (size : ℕ) : BudgetWindow := { w with bytesUsed := w.bytesUsed + size }

/-- `BudgetWindow::remaining`. -/
def remaining (w : BudgetWindow) (repairCap : ℕ → ℕ) : ℕ := repairCap w.totalBudget - w.bytesUsed

@[simp] theorem maybeReset_totalBudget (w : BudgetWindow) (now : ℕ) :
    (w.maybeReset now).totalBudget = w.totalBudget := by
  unfold maybeReset; split <;> rfl

theorem maybeReset_maybeReset (w : BudgetWindow) (now : ℕ) :
    (w.maybeReset now).maybeReset now = w.maybeReset now := by
  by_cases h : now - w.windowStart ≥ w.windowDuration
  · simp only [maybeReset, if_pos h]
    split <;> rfl
  · simp only [maybeReset, if_neg h]

theorem maybeReset_of_lt {w : BudgetWindow} {now : ℕ} (h : now - w.windowStart < w.windowDuration) :
    w.maybeReset now = w := by
  unfold maybeReset
  rw [if_neg (Nat.not_le.mpr h)]

end BudgetWindow

/-- `RepairQueueStats`; `{}` is `default()`. -/
structure RepairQueueStats where
  requestsReceived : ℕ := 0
  repairsScheduled : ℕ := 0
  repairsSent : ℕ := 0
  repairsBudgetBlocked : ℕ := 0
  repairsExceeded : ℕ := 0
  repairsDropped : ℕ := 0
  repairBytes : ℕ := 0
deriving DecidableEq, Repr

/-- `RepairQueue`. -/
structure RepairQueue where
  config : RepairQueueConfig
  coalescer : NackCoalescer
  retryTracker : RetryTracker
  queue : List RepairRequest
  budgetWindow : BudgetWindow
  stats : RepairQueueStats

/-- `DequeueResult`. -/
inductive DequeueResult
  | ready (request : RepairRequest)
  | wait (delay : ℕ)
  | empty
  | budgetExhausted
deriving DecidableEq, Repr

/-- The bytes a repair handed out takes of the budget. -/
def DequeueResult.bytes : DequeueResult → ℕ
  | .ready r => r.estimatedSize
  | _ => 0

/-- The sequence number of a repair handed out. -/
def DequeueResult.repaired : DequeueResult → Option ℤ
  | .ready r => some r.sequence
  | _ => none

namespace RepairQueue

/-- `RepairQueue::with_config`. -/
def withConfig (config : RepairQueueConfig) (now : ℕ) : RepairQueue :=
  ⟨config, NackCoalescer.withMaxBatch config.coalesceDelay config.maxBatchSize,
    RetryTracker.withConfig config.retryConfig, [], BudgetWindow.default now, {}⟩

/-- `RepairQueue::request_repair`. -/
def requestRepair (q : RepairQueue) (gaps : List ℤ) (now : ℕ) : RepairQueue :=
  { q with stats := { q.stats with requestsReceived := q.stats.requestsReceived + gaps.length },
           coalescer := q.coalescer.add gaps now }

/-- `RepairQueue::request_repair_one`. -/
def requestRepairOne (q : RepairQueue) (seq : ℤ) (now : ℕ) : RepairQueue :=
  { q with stats := { q.stats with requestsReceived := q.stats.requestsReceived + 1 },
           coalescer := q.coalescer.addOne seq now }

/-- The queue after inserting `request` in order of due time, after the repairs due no later. -/
def enqueue (queue : List RepairRequest) (request : RepairRequest) : List RepairRequest :=
  insertBefore (fun r => decide (r.scheduledAt > request.scheduledAt)) request queue

/-- `RepairQueue::schedule_repair`: the retry is counted before the queue's room is checked. -/
def scheduleRepair (q : RepairQueue) (seq : ℤ) (now : ℕ) : RepairQueue :=
  match q.retryTracker.nextRetry seq now with
  | (tracker, none) =>
    { q with retryTracker := tracker,
             stats := { q.stats with repairsExceeded := q.stats.repairsExceeded + 1 } }
  | (tracker, some delay) =>
    if q.queue.length ≥ q.config.maxQueueSize then
      { q with retryTracker := tracker,
               stats := { q.stats with repairsDropped := q.stats.repairsDropped + 1 } }
    else
      let request := RepairRequest.new seq delay (tracker.retryCount seq) now
      { q with retryTracker := tracker, queue := enqueue q.queue request,
               stats := { q.stats with repairsScheduled := q.stats.repairsScheduled + 1 } }

/-- `for seq in gaps { self.schedule_repair(seq) }`. -/
def scheduleAll (q : RepairQueue) (gaps : List ℤ) (now : ℕ) : RepairQueue :=
  gaps.foldl (fun q seq => q.scheduleRepair seq now) q

/-- `RepairQueue::process_coalesced`. -/
def processCoalesced (q : RepairQueue) (now : ℕ) : RepairQueue :=
  match q.coalescer.flushIfReady now with
  | (coalescer, some gaps) => scheduleAll { q with coalescer := coalescer } gaps now
  | (coalescer, none) => { q with coalescer := coalescer }

/-- `RepairQueue::flush_coalesced`. -/
def flushCoalesced (q : RepairQueue) (now : ℕ) : RepairQueue :=
  match q.coalescer.flush with
  | (coalescer, some gaps) => scheduleAll { q with coalescer := coalescer } gaps now
  | (coalescer, none) => { q with coalescer := coalescer }

/-- `RepairQueue::try_dequeue`. -/
def tryDequeue (q : RepairQueue) (now : ℕ) : RepairQueue × DequeueResult :=
  let q := { q with budgetWindow := q.budgetWindow.maybeReset now }
  match q.queue with
  | [] => (q, .empty)
  | front :: rest =>
    if !front.isReady now then (q, .wait (front.timeUntilReady now))
    else
      let size := front.estimatedSize
      match q.budgetWindow.hasBudget size q.config.repairCap now with
      | (false, w) =>
        ({ q with budgetWindow := w,
                  stats := { q.stats with repairsBudgetBlocked := q.stats.repairsBudgetBlocked + 1 } },
          .budgetExhausted)
      | (true, w) =>
        ({ q with queue := rest, budgetWindow := w.consume size,
                  stats := { q.stats with repairsSent := q.stats.repairsSent + 1,
                                          repairBytes := q.stats.repairBytes + size } },
          .ready front)

/-- `RepairQueue::ack`. -/
def ack (q : RepairQueue) (seq : ℤ) : RepairQueue :=
  { q with retryTracker := q.retryTracker.ack seq, queue := q.queue.filter (·.sequence != seq) }

/-- `RepairQueue::ack_range`. -/
def ackRange (q : RepairQueue) (start stop : ℤ) : RepairQueue :=
  { q with retryTracker := q.retryTracker.ackRange start stop,
           queue := q.queue.filter fun r => decide (r.sequence < start) || decide (r.sequence > stop) }

/-- `RepairQueue::set_total_budget`. -/
def setTotalBudget (q : RepairQueue) (budgetBps : ℕ) : RepairQueue :=
  { q with budgetWindow := { q.budgetWindow with totalBudget := budgetBps } }

/-- `RepairQueue::pending_count`. -/
def pendingCount (q : RepairQueue) : ℕ := q.queue.length

/-- `RepairQueue::has_pending`. -/
def hasPending (q : RepairQueue) : Bool := !q.queue.isEmpty || decide (q.coalescer.pending ≠ ∅)

/-- `RepairQueue::remaining_budget`. -/
def remainingBudget (q : RepairQueue) : ℕ := q.budgetWindow.remaining q.config.repairCap

/-- `RepairQueue::clear`. -/
def clear (q : RepairQueue) : RepairQueue :=
  { q with queue := [], coalescer := q.coalescer.clear, retryTracker := q.retryTracker.clear }

/-- `RepairQueue::prune_old`. -/
def pruneOld (q : RepairQueue) (maxAge now : ℕ) : RepairQueue :=
  { q with retryTracker := q.retryTracker.pruneOld maxAge now }

/-- The calls of a `RepairQueue` that change it. -/
inductive RepairEvent
  | requestRepair (gaps : List ℤ) (now : ℕ)
  | requestRepairOne (seq : ℤ) (now : ℕ)
  | processCoalesced (now : ℕ)
  | flushCoalesced (now : ℕ)
  | tryDequeue (now : ℕ)
  | ack (seq : ℤ)
  | ackRange (start stop : ℤ)
  | setTotalBudget (budgetBps : ℕ)
  | clear
  | pruneOld (maxAge now : ℕ)
deriving DecidableEq, Repr

/-- One call, and what `try_dequeue` returned. -/
def step (q : RepairQueue) : RepairEvent → RepairQueue × List DequeueResult
  | .requestRepair gaps now => (q.requestRepair gaps now, [])
  | .requestRepairOne seq now => (q.requestRepairOne seq now, [])
  | .processCoalesced now => (q.processCoalesced now, [])
  | .flushCoalesced now => (q.flushCoalesced now, [])
  | .tryDequeue now => ((q.tryDequeue now).1, [(q.tryDequeue now).2])
  | .ack seq => (q.ack seq, [])
  | .ackRange start stop => (q.ackRange start stop, [])
  | .setTotalBudget budgetBps => (q.setTotalBudget budgetBps, [])
  | .clear => (q.clear, [])
  | .pruneOld maxAge now => (q.pruneOld maxAge now, [])

/-! ## What one call does -/

section Spec
variable {q : RepairQueue} {seq : ℤ} {now : ℕ}

theorem scheduleRepair_of_ge
    (h : q.retryTracker.retryCount seq ≥ q.retryTracker.config.maxRetries) :
    q.scheduleRepair seq now =
      { q with retryTracker := (q.retryTracker.nextRetry seq now).1,
               stats := { q.stats with repairsExceeded := q.stats.repairsExceeded + 1 } } := by
  rw [scheduleRepair, RetryTracker.nextRetry_of_ge h]

theorem scheduleRepair_of_full
    (h : q.retryTracker.retryCount seq < q.retryTracker.config.maxRetries)
    (hfull : q.queue.length ≥ q.config.maxQueueSize) :
    q.scheduleRepair seq now =
      { q with retryTracker := (q.retryTracker.nextRetry seq now).1,
               stats := { q.stats with repairsDropped := q.stats.repairsDropped + 1 } } := by
  rw [scheduleRepair, RetryTracker.nextRetry_of_lt h]
  exact if_pos hfull

/-- The repair `schedule_repair` queues: due after the backoff of the new retry count. -/
def nextRequest (q : RepairQueue) (seq : ℤ) (now : ℕ) : RepairRequest :=
  RepairRequest.new seq
    (RetryTracker.calculateDelay q.retryTracker.config (q.retryTracker.retryCount seq + 1))
    (q.retryTracker.retryCount seq + 1) now

theorem scheduleRepair_of_room
    (h : q.retryTracker.retryCount seq < q.retryTracker.config.maxRetries)
    (hroom : q.queue.length < q.config.maxQueueSize) :
    q.scheduleRepair seq now =
      { q with retryTracker := (q.retryTracker.nextRetry seq now).1,
               queue := enqueue q.queue (q.nextRequest seq now),
               stats := { q.stats with repairsScheduled := q.stats.repairsScheduled + 1 } } := by
  have hcount := RetryTracker.retryCount_nextRetry q.retryTracker seq seq now
  rw [if_pos ⟨rfl, h⟩] at hcount
  rw [scheduleRepair, RetryTracker.nextRetry_of_lt h]
  dsimp only
  rw [if_neg (Nat.not_le.mpr hroom)]
  rw [RetryTracker.nextRetry_of_lt h] at hcount
  rw [hcount]
  rfl

/-- A repair that is not queued, its retries used up or the queue full, still counts its retry;
only the statistics tell the two cases apart. -/
theorem scheduleRepair_of_not_room (now : ℕ)
    (h : ¬(q.retryTracker.retryCount seq < q.retryTracker.config.maxRetries ∧
      q.queue.length < q.config.maxQueueSize)) :
    ∃ stats, q.scheduleRepair seq now =
      { q with retryTracker := (q.retryTracker.nextRetry seq now).1, stats := stats } := by
  by_cases hcount : q.retryTracker.retryCount seq < q.retryTracker.config.maxRetries
  · have hfull : q.queue.length ≥ q.config.maxQueueSize :=
      Nat.le_of_not_lt fun hroom => h ⟨hcount, hroom⟩
    exact ⟨_, scheduleRepair_of_full hcount hfull⟩
  · exact ⟨_, scheduleRepair_of_ge (Nat.le_of_not_lt hcount)⟩

theorem scheduleAll_nil (q : RepairQueue) (now : ℕ) : q.scheduleAll [] now = q := rfl

theorem flushCoalesced_eq (q : RepairQueue) (now : ℕ) :
    q.flushCoalesced now =
      scheduleAll { q with coalescer := q.coalescer.flush.1 } (q.coalescer.flush.2.getD []) now := by
  unfold flushCoalesced
  obtain ⟨coalescer, gaps⟩ := q.coalescer.flush
  cases gaps <;> rfl

theorem processCoalesced_eq (q : RepairQueue) (now : ℕ) :
    q.processCoalesced now =
      scheduleAll { q with coalescer := (q.coalescer.flushIfReady now).1 }
        ((q.coalescer.flushIfReady now).2.getD []) now := by
  unfold processCoalesced
  obtain ⟨coalescer, gaps⟩ := q.coalescer.flushIfReady now
  cases gaps <;> rfl

/-- The window `try_dequeue` checks the budget against. -/
def window (q : RepairQueue) (now : ℕ) : BudgetWindow := q.budgetWindow.maybeReset now

theorem tryDequeue_of_nil (h : q.queue = []) :
    q.tryDequeue now = ({ q with budgetWindow := q.window now }, .empty) := by
  unfold tryDequeue
  rw [h]
  rfl

theorem tryDequeue_of_lt {front : RepairRequest} {rest : List RepairRequest}
    (h : q.queue = front :: rest) (hdue : now < front.scheduledAt) :
    q.tryDequeue now =
      ({ q with budgetWindow := q.window now }, .wait (front.scheduledAt - now)) := by
  have hready : front.isReady now = false := decide_eq_false (Nat.not_le.mpr hdue)
  have huntil : front.timeUntilReady now = front.scheduledAt - now :=
    if_neg (Nat.not_le.mpr hdue)
  unfold tryDequeue
  dsimp only
  rw [h]
  simp only [hready, Bool.not_false, if_true, huntil]
  rfl

theorem tryDequeue_of_over {front : RepairRequest} {rest : List RepairRequest}
    (h : q.queue = front :: rest) (hdue : front.scheduledAt ≤ now)
    (hover : ¬(q.window now).bytesUsed + 120 ≤ q.config.repairCap (q.window now).totalBudget) :
    q.tryDequeue now =
      ({ q with budgetWindow := q.window now,
                stats := { q.stats with repairsBudgetBlocked := q.stats.repairsBudgetBlocked + 1 } },
        .budgetExhausted) := by
  have hready : front.isReady now = true := decide_eq_true hdue
  have hbudget : (q.window now).hasBudget front.estimatedSize q.config.repairCap now =
      (false, q.window now) := by
    unfold BudgetWindow.hasBudget window
    rw [BudgetWindow.maybeReset_maybeReset]
    exact Prod.ext (decide_eq_false hover) rfl
  unfold tryDequeue
  dsimp only
  rw [h]
  simp only [hready, Bool.not_true, Bool.false_eq_true, if_false]
  rw [show q.budgetWindow.maybeReset now = q.window now from rfl, hbudget]

theorem tryDequeue_of_within {front : RepairRequest} {rest : List RepairRequest}
    (h : q.queue = front :: rest) (hdue : front.scheduledAt ≤ now)
    (hwithin : (q.window now).bytesUsed + 120 ≤ q.config.repairCap (q.window now).totalBudget) :
    q.tryDequeue now =
      ({ q with queue := rest, budgetWindow := (q.window now).consume 120,
                stats := { q.stats with repairsSent := q.stats.repairsSent + 1,
                                        repairBytes := q.stats.repairBytes + 120 } },
        .ready front) := by
  have hready : front.isReady now = true := decide_eq_true hdue
  have hbudget : (q.window now).hasBudget front.estimatedSize q.config.repairCap now =
      (true, q.window now) := by
    unfold BudgetWindow.hasBudget window
    rw [BudgetWindow.maybeReset_maybeReset]
    exact Prod.ext (decide_eq_true hwithin) rfl
  unfold tryDequeue
  dsimp only
  rw [h]
  simp only [hready, Bool.not_true, Bool.false_eq_true, if_false]
  rw [show q.budgetWindow.maybeReset now = q.window now from rfl, hbudget]
  rfl

/-- A `try_dequeue` that sends nothing, the queue empty, its first repair not due or the budget
spent, changes only the window and the statistics. -/
theorem tryDequeue_of_not_sent
    (h : ¬∃ front rest, q.queue = front :: rest ∧ front.scheduledAt ≤ now ∧
      (q.window now).bytesUsed + 120 ≤ q.config.repairCap (q.window now).totalBudget) :
    ∃ stats result, q.tryDequeue now =
        ({ q with budgetWindow := q.window now, stats := stats }, result) ∧
      result.repaired = none ∧ result.bytes = 0 := by
  by_cases hnil : q.queue = []
  · exact ⟨_, _, tryDequeue_of_nil hnil, rfl, rfl⟩
  obtain ⟨front, rest, hq⟩ := List.exists_cons_of_ne_nil hnil
  by_cases hdue : now < front.scheduledAt
  · exact ⟨_, _, tryDequeue_of_lt hq hdue, rfl, rfl⟩
  · have hdue' := Nat.le_of_not_lt hdue
    exact ⟨_, _, tryDequeue_of_over hq hdue' fun hwithin => h ⟨front, rest, hq, hdue', hwithin⟩,
      rfl, rfl⟩

end Spec

/-! ## Ordered, bounded and within `max_retries` -/

/-- What every call keeps: the queue ordered by due time and within `max_queue_size`, the
tracker on the queue's retry settings and within `max_retries`, and the coalescer's timer
running exactly while it holds NACKs. -/
structure Inv (q : RepairQueue) : Prop where
  sorted : q.queue.Pairwise fun a b => a.scheduledAt ≤ b.scheduledAt
  length_le : q.queue.length ≤ q.config.maxQueueSize
  config_eq : q.retryTracker.config = q.config.retryConfig
  bounded : q.retryTracker.Bounded
  timed : q.coalescer.Timed

theorem inv_withConfig (config : RepairQueueConfig) (now : ℕ) : (withConfig config now).Inv :=
  ⟨List.Pairwise.nil, Nat.zero_le _, rfl, RetryTracker.bounded_withConfig _,
    NackCoalescer.timed_withMaxBatch _ _⟩

theorem length_enqueue (queue : List RepairRequest) (request : RepairRequest) :
    (enqueue queue request).length = queue.length + 1 :=
  (perm_insertBefore _ request queue).length_eq

section Preserve
variable {q : RepairQueue} (h : q.Inv)
include h

theorem Inv.scheduleRepair (seq : ℤ) (now : ℕ) : (q.scheduleRepair seq now).Inv := by
  have htracker : (q.retryTracker.nextRetry seq now).1.config = q.config.retryConfig := by
    rw [RetryTracker.nextRetry_config, h.config_eq]
  by_cases hqueued : q.retryTracker.retryCount seq < q.retryTracker.config.maxRetries ∧
      q.queue.length < q.config.maxQueueSize
  · -- the repair goes in at its place in the order
    rw [scheduleRepair_of_room hqueued.1 hqueued.2]
    refine ⟨pairwise_insertBefore _ RepairRequest.scheduledAt h.sorted, ?_, htracker,
      h.bounded.nextRetry seq now, h.timed⟩
    show (enqueue q.queue _).length ≤ q.config.maxQueueSize
    rw [length_enqueue]
    exact hqueued.2
  · obtain ⟨stats, hschedule⟩ := scheduleRepair_of_not_room now hqueued
    rw [hschedule]
    exact ⟨h.sorted, h.length_le, htracker, h.bounded.nextRetry seq now, h.timed⟩

theorem Inv.scheduleAll (gaps : List ℤ) (now : ℕ) : (q.scheduleAll gaps now).Inv := by
  induction gaps generalizing q with
  | nil => exact h
  | cons seq gaps ih => exact ih (h.scheduleRepair seq now)

theorem Inv.tryDequeue (now : ℕ) : (q.tryDequeue now).1.Inv := by
  by_cases hsent : ∃ front rest, q.queue = front :: rest ∧ front.scheduledAt ≤ now ∧
      (q.window now).bytesUsed + 120 ≤ q.config.repairCap (q.window now).totalBudget
  · -- the first repair leaves the queue
    obtain ⟨front, rest, hq, hdue, hwithin⟩ := hsent
    have hsorted := h.sorted
    have hlength := h.length_le
    rw [hq] at hsorted hlength
    rw [tryDequeue_of_within hq hdue hwithin]
    refine ⟨(List.pairwise_cons.mp hsorted).2, ?_, h.config_eq, h.bounded, h.timed⟩
    simp only [List.length_cons] at hlength
    exact Nat.le_of_succ_le hlength
  · obtain ⟨stats, result, hquiet, -⟩ := tryDequeue_of_not_sent hsent
    rw [hquiet]
    exact ⟨h.sorted, h.length_le, h.config_eq, h.bounded, h.timed⟩

theorem Inv.filter (p : RepairRequest → Bool) (tracker : RetryTracker)
    (hconfig : tracker.config = q.config.retryConfig) (hbounded : tracker.Bounded) :
    ({ q with retryTracker := tracker, queue := q.queue.filter p } : RepairQueue).Inv :=
  ⟨h.sorted.filter p, (List.length_filter_le p q.queue).trans h.length_le, hconfig, hbounded,
    h.timed⟩

theorem Inv.step (e : RepairEvent) : (q.step e).1.Inv := by
  cases e with
  | requestRepair gaps now =>
    exact ⟨h.sorted, h.length_le, h.config_eq, h.bounded, h.timed.add gaps now⟩
  | requestRepairOne seq now =>
    exact ⟨h.sorted, h.length_le, h.config_eq, h.bounded, h.timed.add [seq] now⟩
  | processCoalesced now =>
    show (q.processCoalesced now).Inv
    rw [processCoalesced_eq]
    have hflushed : ({ q with coalescer := (q.coalescer.flushIfReady now).1 } : RepairQueue).Inv :=
      ⟨h.sorted, h.length_le, h.config_eq, h.bounded, h.timed.flushIfReady now⟩
    exact hflushed.scheduleAll _ now
  | flushCoalesced now =>
    show (q.flushCoalesced now).Inv
    rw [flushCoalesced_eq]
    have hflushed : ({ q with coalescer := q.coalescer.flush.1 } : RepairQueue).Inv :=
      ⟨h.sorted, h.length_le, h.config_eq, h.bounded, h.timed.flush⟩
    exact hflushed.scheduleAll _ now
  | tryDequeue now => exact h.tryDequeue now
  | ack seq =>
    exact h.filter _ _ (by rw [RetryTracker.ack_config, h.config_eq]) (h.bounded.ack seq)
  | ackRange start stop =>
    exact h.filter _ _ (by rw [RetryTracker.ackRange_config, h.config_eq])
      (h.bounded.ackRange start stop)
  | setTotalBudget budgetBps => exact ⟨h.sorted, h.length_le, h.config_eq, h.bounded, h.timed⟩
  | clear =>
    exact ⟨List.Pairwise.nil, Nat.zero_le _, h.config_eq, RetryTracker.bounded_clear _,
      NackCoalescer.timed_clear _⟩
  | pruneOld maxAge now =>
    exact ⟨h.sorted, h.length_le, h.config_eq, h.bounded.pruneOld maxAge now, h.timed⟩

end Preserve

theorem inv_run {q : RepairQueue} (h : q.Inv) (es : List RepairEvent) : (run step q es).1.Inv :=
  run_invariant step Inv (fun _ e h => h.step e) q es h

@[simp] theorem scheduleRepair_config (q : RepairQueue) (seq : ℤ) (now : ℕ) :
    (q.scheduleRepair seq now).config = q.config := by
  unfold scheduleRepair
  split
  · rfl
  · split <;> rfl

@[simp] theorem scheduleAll_config (q : RepairQueue) (gaps : List ℤ) (now : ℕ) :
    (q.scheduleAll gaps now).config = q.config := by
  induction gaps generalizing q with
  | nil => rfl
  | cons seq gaps ih => exact (ih _).trans (scheduleRepair_config q seq now)

@[simp] theorem tryDequeue_config (q : RepairQueue) (now : ℕ) :
    (q.tryDequeue now).1.config = q.config := by
  unfold tryDequeue
  dsimp only
  split
  · rfl
  · split
    · rfl
    · split <;> rfl

theorem step_config (q : RepairQueue) (e : RepairEvent) : (q.step e).1.config = q.config := by
  cases e with
  | processCoalesced now =>
    show (q.processCoalesced now).config = q.config
    rw [processCoalesced_eq, scheduleAll_config]
  | flushCoalesced now =>
    show (q.flushCoalesced now).config = q.config
    rw [flushCoalesced_eq, scheduleAll_config]
  | tryDequeue now => exact tryDequeue_config q now
  | _ => rfl

theorem run_config (q : RepairQueue) (es : List RepairEvent) : (run step q es).1.config = q.config :=
  run_invariant step (fun q' => q'.config = q.config) (fun q' e h => (step_config q' e).trans h) q es rfl

/-- From a new queue, along every run of calls, the queue stays ordered by due time and within
`max_queue_size`, and no sequence number is counted more than `max_retries` retries. -/
theorem repair_queue_stays_ordered_and_bounded (config : RepairQueueConfig) (now : ℕ)
    (es : List RepairEvent) :
    ((run step (withConfig config now) es).1.queue.Pairwise
        fun a b => a.scheduledAt ≤ b.scheduledAt) ∧
      (run step (withConfig config now) es).1.queue.length ≤ config.maxQueueSize ∧
      ∀ seq, (run step (withConfig config now) es).1.retryTracker.retryCount seq ≤
        config.retryConfig.maxRetries := by
  have h := inv_run (inv_withConfig config now) es
  have hconfig : (run step (withConfig config now) es).1.config = config :=
    run_config (withConfig config now) es
  have hlength := h.length_le
  rw [hconfig] at hlength
  refine ⟨h.sorted, hlength, fun seq => ?_⟩
  have hbounded := h.bounded seq
  rwa [h.config_eq, hconfig] at hbounded

/-! ## `try_dequeue` hands out the earliest due repair -/

/-- On a queue ordered by due time, a repair handed out is due and due no later than any other,
and `try_dequeue` waits only when no repair is due, for no longer than the first needs. -/
theorem tryDequeue_of_sorted {q : RepairQueue} (hsorted : q.queue.Pairwise
      fun a b => a.scheduledAt ≤ b.scheduledAt) (now : ℕ) :
    (∀ r, (q.tryDequeue now).2 = .ready r →
      r ∈ q.queue ∧ r.scheduledAt ≤ now ∧ ∀ r' ∈ q.queue, r.scheduledAt ≤ r'.scheduledAt) ∧
    (∀ d, (q.tryDequeue now).2 = .wait d →
      ∀ r ∈ q.queue, now < r.scheduledAt ∧ d ≤ r.scheduledAt - now) := by
  cases hq : q.queue with
  | nil =>
    rw [tryDequeue_of_nil hq]
    exact ⟨fun _ h => DequeueResult.noConfusion h, fun _ h => DequeueResult.noConfusion h⟩
  | cons front rest =>
    rw [hq] at hsorted
    -- the first repair is due no later than any other
    have hfirst : ∀ r ∈ front :: rest, front.scheduledAt ≤ r.scheduledAt := by
      intro r hr
      rcases List.mem_cons.mp hr with rfl | hr
      · exact le_rfl
      · exact (List.pairwise_cons.mp hsorted).1 r hr
    by_cases hdue : now < front.scheduledAt
    · rw [tryDequeue_of_lt hq hdue]
      refine ⟨fun _ h => DequeueResult.noConfusion h, fun d hd r hr => ?_⟩
      cases hd
      have hle := hfirst r hr
      omega
    · by_cases hwithin : (q.window now).bytesUsed + 120 ≤ q.config.repairCap (q.window now).totalBudget
      · rw [tryDequeue_of_within hq (Nat.le_of_not_lt hdue) hwithin]
        refine ⟨fun r hr => ?_, fun _ h => DequeueResult.noConfusion h⟩
        cases hr
        exact ⟨List.mem_cons_self, Nat.le_of_not_lt hdue, hfirst⟩
      · rw [tryDequeue_of_over hq (Nat.le_of_not_lt hdue) hwithin]
        exact ⟨fun _ h => DequeueResult.noConfusion h, fun _ h => DequeueResult.noConfusion h⟩

/-- In every state a new queue reaches, `try_dequeue` hands out a repair that is due and due no
later than any other queued, and waits only when no queued repair is due yet. -/
theorem try_dequeue_hands_out_earliest_due_repair (config : RepairQueueConfig) (start : ℕ)
    (es : List RepairEvent) (now : ℕ) :
    (∀ r, ((run step (withConfig config start) es).1.tryDequeue now).2 = .ready r →
      r ∈ (run step (withConfig config start) es).1.queue ∧ r.scheduledAt ≤ now ∧
        ∀ r' ∈ (run step (withConfig config start) es).1.queue, r.scheduledAt ≤ r'.scheduledAt) ∧
    (∀ d, ((run step (withConfig config start) es).1.tryDequeue now).2 = .wait d →
      ∀ r ∈ (run step (withConfig config start) es).1.queue,
        now < r.scheduledAt ∧ d ≤ r.scheduledAt - now) :=
  tryDequeue_of_sorted (inv_run (inv_withConfig config start) es).sorted now

/-! ## Within one budget window -/

/-- A call that keeps to the budget window `w`: no `set_total_budget`, and no `try_dequeue` at a
time the window has run out. -/
def RepairEvent.inWindow (w : BudgetWindow) : RepairEvent → Bool
  | .tryDequeue now => decide (now - w.windowStart < w.windowDuration)
  | .setTotalBudget _ => false
  | _ => true

theorem RepairEvent.inWindow_bytesUsed (w : BudgetWindow) (b : ℕ) (e : RepairEvent) :
    e.inWindow { w with bytesUsed := b } = e.inWindow w := by
  cases e <;> rfl

@[simp] theorem scheduleRepair_budgetWindow (q : RepairQueue) (seq : ℤ) (now : ℕ) :
    (q.scheduleRepair seq now).budgetWindow = q.budgetWindow := by
  unfold scheduleRepair
  split
  · rfl
  · split <;> rfl

@[simp] theorem scheduleAll_budgetWindow (q : RepairQueue) (gaps : List ℤ) (now : ℕ) :
    (q.scheduleAll gaps now).budgetWindow = q.budgetWindow := by
  induction gaps generalizing q with
  | nil => rfl
  | cons seq gaps ih => exact (ih _).trans (scheduleRepair_budgetWindow q seq now)

/-- What a step spends of the window: the bytes of the repair it hands out, and only while they
fit in the window's budget. -/
def Spends (q : RepairQueue) (q' : RepairQueue) (bytes : ℕ) : Prop :=
  q'.budgetWindow = { q.budgetWindow with bytesUsed := q.budgetWindow.bytesUsed + bytes } ∧
    q'.config = q.config ∧
    (bytes = 0 ∨ q.budgetWindow.bytesUsed + bytes ≤ q.config.repairCap q.budgetWindow.totalBudget)

theorem spends_tryDequeue (q : RepairQueue) {now : ℕ}
    (hnow : now - q.budgetWindow.windowStart < q.budgetWindow.windowDuration) :
    Spends q (q.tryDequeue now).1 (q.tryDequeue now).2.bytes := by
  have hwindow : q.window now = q.budgetWindow := BudgetWindow.maybeReset_of_lt hnow
  by_cases hsent : ∃ front rest, q.queue = front :: rest ∧ front.scheduledAt ≤ now ∧
      (q.window now).bytesUsed + 120 ≤ q.config.repairCap (q.window now).totalBudget
  · -- the one step that spends: the 120 bytes fit
    obtain ⟨front, rest, hq, hdue, hwithin⟩ := hsent
    rw [tryDequeue_of_within hq hdue hwithin, hwindow]
    rw [hwindow] at hwithin
    exact ⟨rfl, rfl, .inr hwithin⟩
  · obtain ⟨stats, result, hquiet, -, hbytes⟩ := tryDequeue_of_not_sent hsent
    rw [hquiet]
    dsimp only
    rw [hbytes, hwindow]
    exact ⟨rfl, rfl, .inl rfl⟩

theorem spends_step (q : RepairQueue) {e : RepairEvent} (he : e.inWindow q.budgetWindow = true) :
    Spends q (q.step e).1 ((q.step e).2.map DequeueResult.bytes).sum := by
  have hquiet : ∀ q' : RepairQueue, q'.budgetWindow = q.budgetWindow → q'.config = q.config →
      Spends q q' 0 := fun q' hw hc => ⟨hw, hc, .inl rfl⟩
  cases e with
  | processCoalesced now =>
    show Spends q (q.processCoalesced now) 0
    rw [processCoalesced_eq]
    exact hquiet _ (scheduleAll_budgetWindow _ _ _) (scheduleAll_config _ _ _)
  | flushCoalesced now =>
    show Spends q (q.flushCoalesced now) 0
    rw [flushCoalesced_eq]
    exact hquiet _ (scheduleAll_budgetWindow _ _ _) (scheduleAll_config _ _ _)
  | tryDequeue now =>
    have hspends := spends_tryDequeue q (of_decide_eq_true he)
    simpa [RepairQueue.step] using hspends
  | setTotalBudget budgetBps => exact absurd he Bool.false_ne_true
  | requestRepair | requestRepairOne | ack | ackRange | clear | pruneOld =>
    exact hquiet _ rfl rfl

/-- Within one budget window the repairs a run hands out, added to the bytes already used, stay
within the window's repair budget, or spend nothing past what was already used. -/
theorem repair_bytes_stay_within_window_budget (q : RepairQueue) (es : List RepairEvent)
    (hes : ∀ e ∈ es, e.inWindow q.budgetWindow = true) :
    q.budgetWindow.bytesUsed + ((run step q es).2.map DequeueResult.bytes).sum ≤
      max q.budgetWindow.bytesUsed (q.config.repairCap q.budgetWindow.totalBudget) := by
  induction es generalizing q with
  | nil => simp
  | cons e es ih =>
    obtain ⟨hwindow, hconfig, hspent⟩ := spends_step q (hes e List.mem_cons_self)
    have hrest := ih (q.step e).1 (fun e' he' => by
      rw [hwindow, RepairEvent.inWindow_bytesUsed]
      exact hes e' (List.mem_cons_of_mem e he'))
    rw [hwindow, hconfig] at hrest
    dsimp only at hrest
    rw [run_cons, List.map_append, List.sum_append]
    rcases hspent with hzero | hfits
    · rw [hzero, Nat.add_zero] at hrest
      omega
    · -- once something is spent, what follows stays within the budget too
      rw [max_eq_right hfits] at hrest
      exact le_max_of_le_right (by omega)

theorem repair_bytes_stay_within_window_budget_after_one_nack :
    (∀ e ∈ [RepairEvent.requestRepairOne 7 0, .flushCoalesced 0, .tryDequeue 200000000],
        e.inWindow (withConfig ⟨fun total => total * 3 / 10, 15000000, 100,
          RetryConfig.default fun delay => delay / 10, 500⟩ 0).budgetWindow = true) ∧
      (withConfig ⟨fun total => total * 3 / 10, 15000000, 100,
          RetryConfig.default fun delay => delay / 10, 500⟩ 0).budgetWindow.bytesUsed +
        ((run step (withConfig ⟨fun total => total * 3 / 10, 15000000, 100,
          RetryConfig.default fun delay => delay / 10, 500⟩ 0)
          [.requestRepairOne 7 0, .flushCoalesced 0, .tryDequeue 200000000]).2.map
            DequeueResult.bytes).sum ≤
      max (withConfig ⟨fun total => total * 3 / 10, 15000000, 100,
          RetryConfig.default fun delay => delay / 10, 500⟩ 0).budgetWindow.bytesUsed
        ((withConfig ⟨fun total => total * 3 / 10, 15000000, 100,
          RetryConfig.default fun delay => delay / 10, 500⟩ 0).config.repairCap
          (withConfig ⟨fun total => total * 3 / 10, 15000000, 100,
            RetryConfig.default fun delay => delay / 10, 500⟩ 0).budgetWindow.totalBudget) :=
  ⟨by decide, repair_bytes_stay_within_window_budget _ _ (by decide)⟩

/-! ## At most `max_retries` repairs of a sequence number until it is acknowledged -/

/-- The repairs of `seq` in the queue. -/
def queued (q : RepairQueue) (seq : ℤ) : ℕ := q.queue.countP (·.sequence == seq)

/-- The repairs of `seq` among the results of `try_dequeue`. -/
def handedOut (results : List DequeueResult) (seq : ℤ) : ℕ :=
  results.countP (·.repaired == some seq)

/-- A call that leaves the retry count of `seq` in place: no acknowledgement of it, no `clear`
and no `prune_old`. -/
def RepairEvent.keeps (seq : ℤ) : RepairEvent → Bool
  | .ack s => s != seq
  | .ackRange start stop => !(decide (start ≤ seq) && decide (seq ≤ stop))
  | .clear => false
  | .pruneOld _ _ => false
  | _ => true

/-- Every repair of `seq` a step queues or hands out is charged to a retry it counted. -/
def Charges (seq : ℤ) (q q' : RepairQueue) (handed : ℕ) : Prop :=
  handed + queued q' seq + q.retryTracker.retryCount seq ≤
    queued q seq + q'.retryTracker.retryCount seq

theorem Charges.trans {seq : ℤ} {q₁ q₂ q₃ : RepairQueue} {h₁ h₂ : ℕ}
    (h₁₂ : Charges seq q₁ q₂ h₁) (h₂₃ : Charges seq q₂ q₃ h₂) : Charges seq q₁ q₃ (h₁ + h₂) := by
  unfold Charges at *
  omega

theorem charges_of_eq {seq : ℤ} {q q' : RepairQueue} (hqueue : q'.queue = q.queue)
    (htracker : q'.retryTracker = q.retryTracker) : Charges seq q q' 0 := by
  unfold Charges queued
  rw [hqueue, htracker]
  omega

theorem queued_enqueue (queue : List RepairRequest) (r : RepairRequest) (seq : ℤ) :
    (enqueue queue r).countP (·.sequence == seq) =
      queue.countP (·.sequence == seq) + if r.sequence = seq then 1 else 0 := by
  rw [enqueue, (perm_insertBefore _ r queue).countP_eq, List.countP_cons]
  by_cases h : r.sequence = seq <;> simp [h]

/-- A retry that does not queue its repair still counts. -/
theorem retryCount_le_nextRetry (t : RetryTracker) (seq seq' : ℤ) (now : ℕ) :
    t.retryCount seq ≤ (t.nextRetry seq' now).1.retryCount seq := by
  rw [RetryTracker.retryCount_nextRetry]
  split
  · next h =>
    obtain ⟨rfl, -⟩ := h
    exact Nat.le_succ _
  · exact le_rfl

theorem charges_scheduleRepair (q : RepairQueue) (seq seq' : ℤ) (now : ℕ) :
    Charges seq q (q.scheduleRepair seq' now) 0 := by
  by_cases hqueued : q.retryTracker.retryCount seq' < q.retryTracker.config.maxRetries ∧
      q.queue.length < q.config.maxQueueSize
  · -- the repair queued for `seq'` comes with the retry counted for it
    have hnext := RetryTracker.retryCount_nextRetry q.retryTracker seq' seq now
    rw [Charges, scheduleRepair_of_room hqueued.1 hqueued.2]
    unfold queued
    dsimp only
    have hrequest : (q.nextRequest seq' now).sequence = seq' := rfl
    rw [queued_enqueue, hnext, hrequest]
    by_cases hseq : seq' = seq
    · subst hseq
      rw [if_pos rfl, if_pos ⟨rfl, hqueued.1⟩]
      omega
    · simp only [if_neg hseq, Ne.symm hseq, false_and, if_false]
      omega
  · -- nothing queued, and the retry count can only have grown
    have hle := retryCount_le_nextRetry q.retryTracker seq seq' now
    obtain ⟨stats, hschedule⟩ := scheduleRepair_of_not_room now hqueued
    rw [Charges, hschedule]
    unfold queued
    dsimp only
    omega

theorem charges_scheduleAll (q : RepairQueue) (seq : ℤ) (gaps : List ℤ) (now : ℕ) :
    Charges seq q (q.scheduleAll gaps now) 0 := by
  induction gaps generalizing q with
  | nil => exact charges_of_eq rfl rfl
  | cons seq' gaps ih => exact (charges_scheduleRepair q seq seq' now).trans (ih _)

theorem charges_tryDequeue (q : RepairQueue) (seq : ℤ) (now : ℕ) :
    Charges seq q (q.tryDequeue now).1 (handedOut [(q.tryDequeue now).2] seq) := by
  by_cases hsent : ∃ front rest, q.queue = front :: rest ∧ front.scheduledAt ≤ now ∧
      (q.window now).bytesUsed + 120 ≤ q.config.repairCap (q.window now).totalBudget
  · -- the repair handed out leaves the queue
    obtain ⟨front, rest, hq, hdue, hwithin⟩ := hsent
    rw [tryDequeue_of_within hq hdue hwithin]
    unfold Charges queued handedOut
    dsimp only
    rw [hq]
    by_cases hseq : front.sequence = seq
    · simp [DequeueResult.repaired, hseq]
      omega
    · simp [DequeueResult.repaired, hseq]
  · obtain ⟨stats, result, hquiet, hrepaired, -⟩ := tryDequeue_of_not_sent hsent
    have hnone : handedOut [result] seq = 0 := by simp [handedOut, hrepaired]
    rw [hquiet]
    dsimp only
    rw [hnone]
    exact charges_of_eq rfl rfl

theorem charges_filter (q : RepairQueue) (seq : ℤ) (p : RepairRequest → Bool)
    (hp : ∀ r : RepairRequest, r.sequence = seq → p r = true) (tracker : RetryTracker)
    (htracker : tracker.retryCount seq = q.retryTracker.retryCount seq) :
    Charges seq q { q with retryTracker := tracker, queue := q.queue.filter p } 0 := by
  have hcount : (q.queue.filter p).countP (·.sequence == seq) = q.queue.countP (·.sequence == seq) := by
    rw [List.countP_filter]
    refine List.countP_congr fun r _ => ?_
    by_cases hr : r.sequence = seq <;> simp [hr, hp r]
  unfold Charges queued
  dsimp only
  rw [hcount, htracker]
  omega

theorem charges_step (q : RepairQueue) (seq : ℤ) {e : RepairEvent} (he : e.keeps seq = true) :
    Charges seq q (q.step e).1 (handedOut (q.step e).2 seq) := by
  cases e with
  | processCoalesced now =>
    show Charges seq q (q.processCoalesced now) 0
    rw [processCoalesced_eq]
    exact (charges_of_eq rfl rfl).trans (charges_scheduleAll _ seq _ now)
  | flushCoalesced now =>
    show Charges seq q (q.flushCoalesced now) 0
    rw [flushCoalesced_eq]
    exact (charges_of_eq rfl rfl).trans (charges_scheduleAll _ seq _ now)
  | tryDequeue now => exact charges_tryDequeue q seq now
  | ack s =>
    have hs : s ≠ seq := by simpa [RepairEvent.keeps] using he
    refine charges_filter q seq _ (fun r hr => by simp [hr, Ne.symm hs]) _ ?_
    rw [RetryTracker.retryCount_ack, if_neg (Ne.symm hs)]
  | ackRange start stop =>
    have hout : ¬(start ≤ seq ∧ seq ≤ stop) := by
      simp only [RepairEvent.keeps, Bool.not_eq_true', Bool.and_eq_false_iff,
        decide_eq_false_iff_not] at he
      omega
    refine charges_filter q seq _ (fun r hr => by rw [hr]; simpa using by omega) _ ?_
    rw [RetryTracker.retryCount_ackRange, if_neg hout]
  | clear => exact absurd he Bool.false_ne_true
  | pruneOld maxAge now => exact absurd he Bool.false_ne_true
  | requestRepair | requestRepairOne | setTotalBudget => exact charges_of_eq rfl rfl

theorem charges_run (q : RepairQueue) (seq : ℤ) (es : List RepairEvent)
    (hes : ∀ e ∈ es, e.keeps seq = true) :
    Charges seq q (run step q es).1 (handedOut (run step q es).2 seq) := by
  induction es generalizing q with
  | nil => exact charges_of_eq rfl rfl
  | cons e es ih =>
    have hstep := charges_step q seq (hes e List.mem_cons_self)
    have hrest := ih (q.step e).1 (fun e' he' => hes e' (List.mem_cons_of_mem e he'))
    rw [run_cons, handedOut, List.countP_append]
    exact hstep.trans hrest

/-- From a new queue, until a sequence number is acknowledged, cleared or pruned, `try_dequeue`
hands out at most `max_retries` repairs of it. -/
theorem repairs_of_a_sequence_at_most_max_retries (config : RepairQueueConfig) (now : ℕ)
    (seq : ℤ) (es : List RepairEvent) (hes : ∀ e ∈ es, e.keeps seq = true) :
    handedOut (run step (withConfig config now) es).2 seq ≤ config.retryConfig.maxRetries := by
  have hcharges := charges_run (withConfig config now) seq es hes
  have hbounded := (repair_queue_stays_ordered_and_bounded config now es).2.2 seq
  unfold Charges at hcharges
  have hfresh : (withConfig config now).retryTracker.retryCount seq = 0 := rfl
  have hempty : queued (withConfig config now) seq = 0 := rfl
  omega

theorem repairs_of_a_sequence_at_most_max_retries_of_repeated_nacks :
    (∀ e ∈ [RepairEvent.requestRepairOne 7 0, .flushCoalesced 0, .requestRepairOne 7 1,
        .flushCoalesced 1, .tryDequeue 1000000000], e.keeps 7 = true) ∧
      handedOut (run step (withConfig ⟨fun total => total * 3 / 10, 15000000, 100,
          RetryConfig.default fun delay => delay / 10, 500⟩ 0)
        [.requestRepairOne 7 0, .flushCoalesced 0, .requestRepairOne 7 1, .flushCoalesced 1,
          .tryDequeue 1000000000]).2 7 ≤
        (RetryConfig.default fun delay => delay / 10).maxRetries :=
  ⟨by decide, repairs_of_a_sequence_at_most_max_retries _ 0 7 _ (by decide)⟩

/-! ## A full queue still uses up retries -/

/-- A NACK of `seq` and a forced flush, at each of the times. -/
def nackRounds (seq : ℤ) (times : List ℕ) : List RepairEvent :=
  times.flatMap fun now => [.requestRepairOne seq now, .flushCoalesced now]

/-- A NACK of `seq` on an empty batch and a forced flush: the batch is `seq` alone, scheduled on
the queue as it was. -/
theorem run_nack_flush {q : RepairQueue} (hpending : q.coalescer.pending = ∅) (seq : ℤ)
    (now : ℕ) :
    (run step q [.requestRepairOne seq now, .flushCoalesced now]).1 =
      ({ q.requestRepairOne seq now with
          coalescer := (q.requestRepairOne seq now).coalescer.flush.1 } : RepairQueue).scheduleRepair
        seq now := by
  have hrun : (run step q [.requestRepairOne seq now, .flushCoalesced now]).1 =
      ((q.requestRepairOne seq now).flushCoalesced now) := rfl
  have hnacked : (q.requestRepairOne seq now).coalescer.pending = {seq} := by
    show (q.coalescer.add [seq] now).pending = {seq}
    rw [NackCoalescer.add_pending, hpending, Finset.empty_union]
    rfl
  have hflushed : (q.requestRepairOne seq now).coalescer.flush.2 = some [seq] := by
    rw [NackCoalescer.flush_snd, hnacked, if_neg (Finset.singleton_ne_empty seq),
      Finset.sort_singleton]
  rw [hrun, flushCoalesced_eq, hflushed, Option.getD_some]
  rfl

/-- While the queue is full, a NACK and a flush queue nothing and count a retry, up to
`max_retries`. -/
theorem round_of_full {q : RepairQueue} (hfull : q.config.maxQueueSize ≤ q.queue.length)
    (hpending : q.coalescer.pending = ∅) {seq : ℤ}
    (hbounded : q.retryTracker.retryCount seq ≤ q.retryTracker.config.maxRetries) (now : ℕ) :
    (run step q [.requestRepairOne seq now, .flushCoalesced now]).1.queue = q.queue ∧
      (run step q [.requestRepairOne seq now, .flushCoalesced now]).1.config = q.config ∧
      (run step q [.requestRepairOne seq now, .flushCoalesced now]).1.coalescer.pending = ∅ ∧
      (run step q [.requestRepairOne seq now, .flushCoalesced now]).1.retryTracker.config =
        q.retryTracker.config ∧
      (run step q [.requestRepairOne seq now, .flushCoalesced now]).1.retryTracker.retryCount seq =
        min (q.retryTracker.retryCount seq + 1) q.retryTracker.config.maxRetries ∧
      (run step q [.requestRepairOne seq now, .flushCoalesced now]).1.budgetWindow =
        q.budgetWindow := by
  rw [run_nack_flush hpending]
  obtain ⟨stats, hfullSchedule⟩ := scheduleRepair_of_not_room
    (q := { q.requestRepairOne seq now with
      coalescer := (q.requestRepairOne seq now).coalescer.flush.1 }) now
    (fun hroom => Nat.not_le.mpr hroom.2 hfull)
  rw [hfullSchedule]
  refine ⟨rfl, rfl, NackCoalescer.flush_pending _, RetryTracker.nextRetry_config _ _ _, ?_, rfl⟩
  show (q.retryTracker.nextRetry seq now).1.retryCount seq = _
  -- one more retry, unless `max_retries` is reached
  rw [RetryTracker.retryCount_nextRetry]
  split_ifs <;> omega

theorem rounds_of_full {q : RepairQueue} (hfull : q.config.maxQueueSize ≤ q.queue.length)
    (hpending : q.coalescer.pending = ∅) {seq : ℤ}
    (hbounded : q.retryTracker.retryCount seq ≤ q.retryTracker.config.maxRetries) (times : List ℕ) :
    (run step q (nackRounds seq times)).1.queue = q.queue ∧
      (run step q (nackRounds seq times)).1.retryTracker.config = q.retryTracker.config ∧
      (run step q (nackRounds seq times)).1.retryTracker.retryCount seq =
        min (q.retryTracker.retryCount seq + times.length) q.retryTracker.config.maxRetries ∧
      (run step q (nackRounds seq times)).1.budgetWindow = q.budgetWindow := by
  induction times generalizing q with
  | nil => exact ⟨rfl, rfl, (Nat.min_eq_left hbounded).symm, rfl⟩
  | cons now times ih =>
    obtain ⟨hqueue, hconfig, hpending', htracker, hcount, hwindow⟩ :=
      round_of_full hfull hpending hbounded now
    have hrest := ih (hqueue ▸ hconfig ▸ hfull) hpending'
      (by rw [hcount, htracker]; exact Nat.min_le_right _ _)
    have hsplit : nackRounds seq (now :: times) =
        [.requestRepairOne seq now, .flushCoalesced now] ++ nackRounds seq times := rfl
    rw [hsplit, run_append]
    dsimp only
    obtain ⟨hqueue', hconfig', hcount', hwindow'⟩ := hrest
    refine ⟨hqueue'.trans hqueue, hconfig'.trans htracker, ?_, hwindow'.trans hwindow⟩
    rw [hcount', hcount, htracker, List.length_cons]
    simp only [Nat.min_def]
    split_ifs <;> omega

/-- With room in the queue and a retry left, a NACK and a flush queue the repair. -/
theorem round_of_room {q : RepairQueue} (hroom : q.queue.length < q.config.maxQueueSize)
    (hpending : q.coalescer.pending = ∅) {seq : ℤ}
    (hcount : q.retryTracker.retryCount seq < q.retryTracker.config.maxRetries) (now : ℕ) :
    (run step q [.requestRepairOne seq now, .flushCoalesced now]).1.queue =
        enqueue q.queue (q.nextRequest seq now) ∧
      (run step q [.requestRepairOne seq now, .flushCoalesced now]).1.coalescer.pending = ∅ ∧
      (run step q [.requestRepairOne seq now, .flushCoalesced now]).1.budgetWindow =
        q.budgetWindow := by
  rw [run_nack_flush hpending, scheduleRepair_of_room (q := { q.requestRepairOne seq now with
      coalescer := (q.requestRepairOne seq now).coalescer.flush.1 }) hcount hroom]
  exact ⟨rfl, NackCoalescer.flush_pending _, rfl⟩

/-- A repair dropped because the queue is full still counts a retry: once a sequence number with
no repair queued has been NACKed and flushed `max_retries` times while the queue was full, no
later run that does not acknowledge, clear or prune it ever hands out a repair of it, however
much room the queue gets. -/
theorem nacks_while_queue_full_leave_sequence_unrepaired (q : RepairQueue) (hinv : q.Inv)
    (hfull : q.config.maxQueueSize ≤ q.queue.length) (hpending : q.coalescer.pending = ∅)
    (seq : ℤ) (hnone : queued q seq = 0) (times : List ℕ)
    (hmany : q.config.retryConfig.maxRetries ≤ times.length) (es : List RepairEvent)
    (hes : ∀ e ∈ es, e.keeps seq = true) :
    handedOut (run step (run step q (nackRounds seq times)).1 es).2 seq = 0 := by
  obtain ⟨hqueue, htracker, hcount, -⟩ := rounds_of_full hfull hpending (hinv.bounded seq) times
  have hinv' := inv_run hinv (nackRounds seq times)
  have hfinal := inv_run hinv' es
  have hcharges := charges_run (run step q (nackRounds seq times)).1 seq es hes
  -- the retry count is at `max_retries` after the rounds and cannot grow past it
  have hmax : (run step q (nackRounds seq times)).1.retryTracker.retryCount seq =
      q.config.retryConfig.maxRetries := by
    rw [hcount, hinv.config_eq, Nat.min_eq_right (by omega)]
  have hbound := hfinal.bounded seq
  rw [hfinal.config_eq, run_config, run_config, ← hinv.config_eq] at hbound
  have hqueued : queued (run step q (nackRounds seq times)).1 seq = 0 := by
    rw [queued, hqueue]
    exact hnone
  unfold Charges at hcharges
  rw [hinv.config_eq] at hbound
  omega


/-- One repair fits in the queue; two retries per sequence number. -/
def oneSlotConfig : RepairQueueConfig :=
  ⟨fun total => total * 3 / 10, 15000000, 100,
    RetryConfig.withMaxRetries (RetryConfig.default fun delay => delay / 10) 2, 1⟩

/-- The queue filled by the repair of sequence 9. -/
def fullOfNine : RepairQueue :=
  (run step (withConfig oneSlotConfig 0) [.requestRepairOne 9 0, .flushCoalesced 0]).1

/-- Sequence 4 is NACKed twice while the repair of 9 fills the queue; the first `try_dequeue`
then hands out the repair of 9, and sequence 4, NACKed again into the freed room, is never
handed out. -/
theorem nacks_while_queue_full_leave_sequence_unrepaired_after_drain :
    (fullOfNine.Inv ∧ fullOfNine.config.maxQueueSize ≤ fullOfNine.queue.length ∧
      fullOfNine.coalescer.pending = ∅ ∧ queued fullOfNine 4 = 0 ∧
      fullOfNine.config.retryConfig.maxRetries ≤ [1, 2].length ∧
      ∀ e ∈ [RepairEvent.tryDequeue 10000000000, .requestRepairOne 4 10000000000,
        .flushCoalesced 10000000000, .tryDequeue 20000000000], e.keeps 4 = true) ∧
    ((run step fullOfNine (nackRounds 4 [1, 2])).1.tryDequeue 10000000000).2 =
      .ready ((withConfig oneSlotConfig 0).nextRequest 9 0) ∧
    handedOut (run step (run step fullOfNine (nackRounds 4 [1, 2])).1
      [.tryDequeue 10000000000, .requestRepairOne 4 10000000000, .flushCoalesced 10000000000,
        .tryDequeue 20000000000]).2 4 = 0 := by
  -- the repair of 9 goes into the empty queue and fills it
  have hfresh : (withConfig oneSlotConfig 0).retryTracker.retryCount 9 <
      (withConfig oneSlotConfig 0).retryTracker.config.maxRetries := by
    decide
  obtain ⟨hqueue, hpending, hwindow⟩ := round_of_room (q := withConfig oneSlotConfig 0)
    (by decide) rfl hfresh 0
  have hqueue' : fullOfNine.queue = [(withConfig oneSlotConfig 0).nextRequest 9 0] := hqueue
  have hinv : fullOfNine.Inv := inv_run (inv_withConfig _ 0) _
  have hconfig : fullOfNine.config = oneSlotConfig := run_config _ _
  have hfull : fullOfNine.config.maxQueueSize ≤ fullOfNine.queue.length := by
    rw [hconfig, hqueue']
    decide
  have hnone : queued fullOfNine 4 = 0 := by
    rw [queued, hqueue']
    decide
  have hmany : fullOfNine.config.retryConfig.maxRetries ≤ [1, 2].length := by
    rw [hconfig]
    decide
  -- the two rounds leave the queue and the window as they were
  obtain ⟨hqueue₂, -, -, hwindow₂⟩ := rounds_of_full hfull hpending (hinv.bounded 4) [1, 2]
  have hdrain : ((run step fullOfNine (nackRounds 4 [1, 2])).1.tryDequeue 10000000000).2 =
      .ready ((withConfig oneSlotConfig 0).nextRequest 9 0) := by
    have hwithin : ((run step fullOfNine (nackRounds 4 [1, 2])).1.window 10000000000).bytesUsed +
        120 ≤ (run step fullOfNine (nackRounds 4 [1, 2])).1.config.repairCap
          ((run step fullOfNine (nackRounds 4 [1, 2])).1.window 10000000000).totalBudget := by
      have hstart : fullOfNine.budgetWindow = BudgetWindow.default 0 := hwindow
      rw [window, hwindow₂, run_config, hconfig, hstart]
      decide
    rw [tryDequeue_of_within (hqueue₂.trans hqueue') (by decide) hwithin]
  exact ⟨⟨hinv, hfull, hpending, hnone, hmany, by decide⟩, hdrain,
    nacks_while_queue_full_leave_sequence_unrepaired fullOfNine hinv hfull hpending 4 hnone [1, 2]
      hmany _ (by decide)⟩

end RepairQueue

end Hdds.Congestion
