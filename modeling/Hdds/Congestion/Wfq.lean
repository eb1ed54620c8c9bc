import Hdds.Foundations.Assoc
import Hdds.Foundations.PriorityQueue
import Mathlib.Algebra.Order.Field.Basic
import Mathlib.Data.Rat.Cast.Order
import Mathlib.Data.Rat.Cast.OfScientific

/-! # Weighted fair queueing

`congestion/wfq.rs`: a `WfqScheduler` stamps each packet with the virtual finish time
`virtual_start + size / weight` of its writer, and a `BinaryHeap` ordered by the reverse of that
tag pops the earliest finish first.

* The `f64` arithmetic is any type `K` with the operations the code uses (`+`, `/`, `max`,
  `as f64`, the literal `0.1`) and the `<=` from which `f64::partial_cmp` is built. Nothing is
  assumed of them for conservation; the order results take a linear order, as `f64` is on the
  tags the scheduler computes, and nothing of the arithmetic.
* The heap is any `HeapOps` on packets: `BinaryHeap` keeps its packets through `push` and `pop`
  and, with `PopsMax`, pops a greatest packet under `Ord for WfqPacket`.
* The `HashMap` of writers is an `AList`; an update through `get_mut` is `AList.modify`.

A run of calls records what `enqueue` accepted and what `dequeue` and `drain_writer` returned.
No packet is lost or returned twice (`perm_run`). Per writer, packets come back in the order
they were accepted when each packet's finish tag comes out strictly after the start tag it is
stamped from and `add_writer` never resets a writer that still has packets queued (`fifo_run`).
Re-adding such a writer restarts its virtual start at the global virtual time while its old
packets stay queued with later tags; a packet of size 0 finishes where it starts, so two of one
writer tie, and the heap may pop either.
-/

namespace Hdds.Congestion
set_option autoImplicit false
set_option linter.unusedSectionVars false

/-- `pub type WriterId = u64`. -/
abbrev WriterId := UInt64

section Model

variable {K : Type} [Zero K] [Add K] [Div K] [Max K] [NatCast K] [OfScientific K] [LE K]
  [DecidableLE K] {T : Type}

/-- `f64::partial_cmp`, from `<=` both ways: `None` when neither holds. -/
def partialCmp (a b : K) : Option Ordering :=
  match decide (a ≤ b), decide (b ≤ a) with
  | false, false => none
  | false, true => some .gt
  | true, false => some .lt
  | true, true => some .eq

variable (K T) in
structure WfqPacket where
  writerId : WriterId
  data : T
  size : ℕ
  finishTime : K
  deriving DecidableEq, Repr

/-- `Ord for WfqPacket`: the finish times compared the other way round, and equal when they
are unordered, so that the max-heap pops the earliest finish. -/
def WfqPacket.cmp (p other : WfqPacket K T) : Ordering :=
  (partialCmp other.finishTime p.finishTime).getD .eq

/-- What the caller gets of a packet: its writer and its data. -/
def WfqPacket.entry (p : WfqPacket K T) : WriterId × T :=
  (p.writerId, p.data)

variable (K) in
structure WfqWriter where
  weight : K
  virtualStart : K
  bytesScheduled : ℕ
  packetsScheduled : ℕ
  active : Bool
  deriving DecidableEq, Repr

/-- `WfqWriter::new`: the weight is clamped below at `0.1`. -/
def WfqWriter.new (weight : K) : WfqWriter K :=
  { weight := max weight 0.1, virtualStart := 0, bytesScheduled := 0, packetsScheduled := 0,
    active := false }

/-- The writer as `enqueue` stamps with it: an idle writer first starts from the global virtual
time `virtualTime`. -/
def WfqWriter.activate (writer : WfqWriter K) (virtualTime : K) : WfqWriter K :=
  if writer.active then writer else { writer with virtualStart := virtualTime, active := true }

variable (K) in
structure WfqStats where
  totalPackets : ℕ
  totalBytes : ℕ
  virtualTime : K
  deriving DecidableEq, Repr

variable (K T) in
structure WfqScheduler where
  writers : AList fun _ : WriterId => WfqWriter K
  queue : List (WfqPacket K T)
  virtualTime : K
  maxQueueSize : ℕ
  stats : WfqStats K

inductive WfqError
  | queueFull
  | unknownWriter
  deriving DecidableEq, Repr

namespace WfqScheduler

variable (H : HeapOps (WfqPacket K T))

/-- `WfqScheduler::with_max_queue`. -/
def withMaxQueue (maxSize : ℕ) : WfqScheduler K T :=
  { writers := ∅, queue := [], virtualTime := 0, maxQueueSize := maxSize,
    stats := { totalPackets := 0, totalBytes := 0, virtualTime := 0 } }

/-- `WfqScheduler::new`. -/
def new : WfqScheduler K T :=
  withMaxQueue 10000

variable (s : WfqScheduler K T)

/-- `WfqScheduler::add_writer`: a writer already there is replaced by a fresh one. -/
def addWriter (writerId : WriterId) (weight : K) : WfqScheduler K T :=
  { s with writers := s.writers.insert writerId (WfqWriter.new weight) }

/-- `WfqScheduler::remove_writer`; its packets stay queued. -/
def removeWriter (writerId : WriterId) : WfqScheduler K T × Bool :=
  ({ s with writers := s.writers.erase writerId }, (s.writers.lookup writerId).isSome)

/-- `WfqScheduler::set_weight`. -/
def setWeight (writerId : WriterId) (weight : K) : WfqScheduler K T × Bool :=
  ({ s with
    writers := s.writers.modify writerId fun writer => { writer with weight := max weight 0.1 } },
    (s.writers.lookup writerId).isSome)

/-- The end of `enqueue`: stamp the packet with the finish time of the (activated) `writer`,
advance the writer's virtual start to it, and push the packet. -/
def schedule (writerId : WriterId) (writer : WfqWriter K) (data : T) (size : ℕ) :
    WfqScheduler K T :=
  let finishTime := writer.virtualStart + (size : K) / writer.weight
  { s with
    writers := s.writers.replace writerId
      { writer with virtualStart := finishTime, bytesScheduled := writer.bytesScheduled + size,
                    packetsScheduled := writer.packetsScheduled + 1 }
    queue := H.push ⟨writerId, data, size, finishTime⟩ s.queue
    stats := { s.stats with totalPackets := s.stats.totalPackets + 1,
                            totalBytes := s.stats.totalBytes + size } }

/-- `WfqScheduler::enqueue`. -/
def enqueue (writerId : WriterId) (data : T) (size : ℕ) : Except WfqError (WfqScheduler K T) := do
  if s.maxQueueSize ≤ s.queue.length then throw .queueFull
  let some writer := s.writers.lookup writerId | throw .unknownWriter
  pure (s.schedule H writerId (writer.activate s.virtualTime) data size)

/-- `WfqScheduler::dequeue`: the virtual time advances to the popped finish time, and the
popped packet's writer stays active while another of its packets is queued. -/
def dequeue : WfqScheduler K T × Option (WfqPacket K T) :=
  match H.pop s.queue with
  | none => (s, none)
  | some (packet, queue) =>
    let virtualTime := max s.virtualTime packet.finishTime
    let hasPending := queue.any fun p => p.writerId == packet.writerId
    ({ s with
      queue
      virtualTime
      writers := s.writers.modify packet.writerId fun writer => { writer with active := hasPending }
      stats := { s.stats with virtualTime } }, some packet)

/-- `WfqScheduler::reset_virtual_time`: only on an empty queue. -/
def resetVirtualTime : WfqScheduler K T :=
  if s.queue.isEmpty then
    { s with
      virtualTime := 0
      writers := s.writers.mapVal fun _ writer => { writer with virtualStart := 0 } }
  else s

/-- `WfqScheduler::drain_writer`: pop the whole heap, keep the writer's packets (whose data is
returned) and push the others onto a new heap. -/
def drainWriter (writerId : WriterId) : WfqScheduler K T × List T :=
  let r := H.drainBy (fun p => p.writerId == writerId) s.queue [] []
  ({ s with
    queue := r.2
    writers := s.writers.modify writerId fun writer => { writer with active := false } },
    r.1.map (·.data))

end WfqScheduler

/-! ## Runs -/

variable (K T) in
inductive WfqCall
  | addWriter (writerId : WriterId) (weight : K)
  | removeWriter (writerId : WriterId)
  | setWeight (writerId : WriterId) (weight : K)
  | enqueue (writerId : WriterId) (data : T) (size : ℕ)
  | dequeue
  | drainWriter (writerId : WriterId)
  | resetVirtualTime

variable (K T) in
/-- What each call returns. -/
inductive WfqReply
  | done
  | found (present : Bool)
  | enqueued (result : Except WfqError Unit)
  | dequeued (packet : Option (WfqPacket K T))
  | drained (data : List T)

namespace WfqScheduler

variable (H : HeapOps (WfqPacket K T))

def step (s : WfqScheduler K T) : WfqCall K T → WfqScheduler K T × WfqReply K T
  | .addWriter writerId weight => (s.addWriter writerId weight, .done)
  | .removeWriter writerId => ((s.removeWriter writerId).1, .found (s.removeWriter writerId).2)
  | .setWeight writerId weight =>
    ((s.setWeight writerId weight).1, .found (s.setWeight writerId weight).2)
  | .enqueue writerId data size =>
    match s.enqueue H writerId data size with
    | .ok s' => (s', .enqueued (.ok ()))
    | .error e => (s, .enqueued (.error e))
  | .dequeue => ((s.dequeue H).1, .dequeued (s.dequeue H).2)
  | .drainWriter writerId => ((s.drainWriter H writerId).1, .drained (s.drainWriter H writerId).2)
  | .resetVirtualTime => (s.resetVirtualTime, .done)

end WfqScheduler

/-- The packet a call had accepted, as writer and data. -/
def WfqCall.accepted : WfqCall K T → WfqReply K T → List (WriterId × T)
  | .enqueue writerId data _, .enqueued (.ok ()) => [(writerId, data)]
  | _, _ => []

/-- The packets a call returned, as writer and data. -/
def WfqCall.delivered : WfqCall K T → WfqReply K T → List (WriterId × T)
  | .dequeue, .dequeued (some p) => [p.entry]
  | .drainWriter writerId, .drained data => data.map fun d => (writerId, d)
  | _, _ => []

variable (K T) in
structure WfqRun where
  final : WfqScheduler K T
  accepted : List (WriterId × T)
  delivered : List (WriterId × T)

namespace WfqScheduler

variable (H : HeapOps (WfqPacket K T))

/-- The calls the order guarantee covers: `add_writer` of a writer with no packet queued, and
`enqueue` of a packet whose finish tag comes out strictly after the start tag it is stamped
from (which a packet of size 0, or a cost the addition rounds away, does not). -/
def admits (s : WfqScheduler K T) : WfqCall K T → Bool
  | .addWriter writerId _ => s.queue.all fun p => p.writerId != writerId
  | .enqueue writerId _ size =>
    match s.writers.lookup writerId with
    | some writer =>
      !decide ((writer.activate s.virtualTime).virtualStart +
          (size : K) / (writer.activate s.virtualTime).weight ≤
        (writer.activate s.virtualTime).virtualStart)
    | none => true
  | _ => true

/-- Every call of the run is covered, in the state it meets. -/
def admissible (s : WfqScheduler K T) : List (WfqCall K T) → Bool
  | [] => true
  | c :: calls => s.admits c && (s.step H c).1.admissible calls

/-- The calls one after another, with what was accepted and what was returned on the way. -/
def run (s : WfqScheduler K T) : List (WfqCall K T) → WfqRun K T
  | [] => ⟨s, [], []⟩
  | c :: calls =>
    let r := (s.step H c).1.run calls
    ⟨r.final, c.accepted (s.step H c).2 ++ r.accepted,
      c.delivered (s.step H c).2 ++ r.delivered⟩

end WfqScheduler


/-! ## Conservation -/

namespace WfqScheduler

variable (H : HeapOps (WfqPacket K T)) (s : WfqScheduler K T)

theorem enqueue_eq_ok {writerId : WriterId} {data : T} {size : ℕ} {s' : WfqScheduler K T}
    (h : s.enqueue H writerId data size = .ok s') :
    s.queue.length < s.maxQueueSize ∧ ∃ writer, s.writers.lookup writerId = some writer ∧
      s' = s.schedule H writerId (writer.activate s.virtualTime) data size := by
  unfold enqueue at h
  by_cases hfull : s.maxQueueSize ≤ s.queue.length
  · simp [hfull] at h
    cases h
  · cases hw : s.writers.lookup writerId with
    | none => simp [hfull, hw] at h
    | some writer =>
      simp only [hfull, hw, if_false] at h
      exact ⟨by omega, writer, rfl, (Except.ok.inj h).symm⟩

theorem dequeue_of_pop_none (hp : H.pop s.queue = none) : s.dequeue H = (s, none) := by
  simp only [dequeue, hp]

theorem dequeue_of_pop_some {p : WfqPacket K T} {q : List (WfqPacket K T)}
    (hp : H.pop s.queue = some (p, q)) :
    (s.dequeue H).2 = some p ∧ (s.dequeue H).1.queue = q ∧
      (s.dequeue H).1.writers = s.writers.modify p.writerId
        fun writer => { writer with active := q.any fun p' => p'.writerId == p.writerId } := by
  simp only [dequeue, hp, and_self]

end WfqScheduler

end Model

/-! ## Per-writer order under exact arithmetic -/

section Ordered

variable {K : Type} [Zero K] [Add K] [Div K] [NatCast K] [OfScientific K] [LinearOrder K]
  {T : Type}

theorem partialCmp_eq_compare (a b : K) : partialCmp a b = some (compare a b) := by
  rcases lt_trichotomy a b with h | rfl | h
  · simp [partialCmp, h.le, not_le.2 h, compare_lt_iff_lt.2 h]
  · simp [partialCmp]
  · simp [partialCmp, h.le, not_le.2 h, compare_gt_iff_gt.2 h]

theorem WfqPacket.cmp_eq (p q : WfqPacket K T) : p.cmp q = compare q.finishTime p.finishTime := by
  simp [WfqPacket.cmp, partialCmp_eq_compare]

theorem WfqPacket.cmp_eq_gt {p q : WfqPacket K T} :
    p.cmp q = .gt ↔ p.finishTime < q.finishTime := by
  rw [WfqPacket.cmp_eq, compare_gt_iff_gt]

instance : Std.TransCmp (WfqPacket.cmp (K := K) (T := T)) where
  eq_swap {a b} := by
    simp only [WfqPacket.cmp_eq]
    exact Std.OrientedCmp.eq_swap
  isLE_trans {a b c} hab hbc := by
    simp only [WfqPacket.cmp_eq] at *
    exact Std.TransCmp.isLE_trans hbc hab

theorem WfqWriter.weight_activate (writer : WfqWriter K) (virtualTime : K) :
    (writer.activate virtualTime).weight = writer.weight := by
  unfold WfqWriter.activate
  split <;> rfl

theorem WfqWriter.active_activate (writer : WfqWriter K) (virtualTime : K) :
    (writer.activate virtualTime).active = true := by
  unfold WfqWriter.activate
  split <;> simp_all

theorem WfqWriter.activate_of_active {writer : WfqWriter K} (h : writer.active = true)
    (virtualTime : K) : writer.activate virtualTime = writer := by
  simp [WfqWriter.activate, h]

/-- Writer `w`'s queued packets, listed as `L` in the order they were accepted: their finish
times increase, what was returned of `w` followed by `L` is what was accepted of `w`, and a
registered writer with a packet queued is active and starts no earlier than all of them. -/
structure WriterFifo (s : WfqScheduler K T) (accepted delivered : List (WriterId × T))
    (w : WriterId) (L : List (WfqPacket K T)) : Prop where
  queued : (s.queue.filter fun p => p.writerId == w).Perm L
  sorted : L.Pairwise fun a b => a.finishTime < b.finishTime
  ledger : delivered.filter (fun e => e.1 == w) ++ L.map WfqPacket.entry =
    accepted.filter fun e => e.1 == w
  writer : ∀ writer, s.writers.lookup w = some writer → L ≠ [] →
    writer.active = true ∧ ∀ p ∈ L, p.finishTime ≤ writer.virtualStart

/-- The run invariant: every writer keeps its packets in order. -/
structure Fifo (s : WfqScheduler K T) (accepted delivered : List (WriterId × T)) : Prop where
  fifo : ∀ w, ∃ L, WriterFifo s accepted delivered w L

namespace WriterFifo

variable {s s' : WfqScheduler K T} {A A' D D' : List (WriterId × T)} {w : WriterId}
  {L : List (WfqPacket K T)}

theorem mem_writerId (h : WriterFifo s A D w L) {p : WfqPacket K T} (hp : p ∈ L) :
    p.writerId = w := by
  simpa using List.of_mem_filter (h.queued.mem_iff.2 hp)

theorem eq_nil_of_queue (h : WriterFifo s A D w L) (hq : ∀ p ∈ s.queue, p.writerId ≠ w) :
    L = [] := by
  apply List.eq_nil_iff_forall_not_mem.2
  intro p hp
  exact hq p (List.mem_of_mem_filter (h.queued.mem_iff.2 hp)) (h.mem_writerId hp)

/-- A step that leaves `w`'s packets, its ledger and the part of its state the invariant reads
as they were keeps the invariant. -/
theorem congr (h : WriterFifo s A D w L)
    (hq : (s'.queue.filter fun p => p.writerId == w).Perm (s.queue.filter fun p => p.writerId == w))
    (hw : L ≠ [] → ∀ writer', s'.writers.lookup w = some writer' → ∃ writer,
      s.writers.lookup w = some writer ∧ writer'.active = writer.active ∧
        writer'.virtualStart = writer.virtualStart)
    (hA : A'.filter (fun e => e.1 == w) = A.filter fun e => e.1 == w)
    (hD : D'.filter (fun e => e.1 == w) = D.filter fun e => e.1 == w) :
    WriterFifo s' A' D' w L where
  queued := hq.trans h.queued
  sorted := h.sorted
  ledger := by rw [hA, hD]; exact h.ledger
  writer writer' hw' hL := by
    obtain ⟨writer, hwriter, hactive, hstart⟩ := hw hL writer' hw'
    rw [hactive, hstart]
    exact h.writer writer hwriter hL

end WriterFifo

namespace Fifo

variable (H : HeapOps (WfqPacket K T)) {s : WfqScheduler K T} {A D : List (WriterId × T)}

theorem withMaxQueue (maxSize : ℕ) :
    Fifo (WfqScheduler.withMaxQueue maxSize : WfqScheduler K T) [] [] where
  fifo w := ⟨[], by simp [WfqScheduler.withMaxQueue], List.Pairwise.nil, rfl,
    fun _ _ h => absurd rfl h⟩

theorem addWriter (hinv : Fifo s A D) {writerId : WriterId} (weight : K)
    (hq : ∀ p ∈ s.queue, p.writerId ≠ writerId) : Fifo (s.addWriter writerId weight) A D where
  fifo w := by
    obtain ⟨L, hL⟩ := hinv.fifo w
    by_cases hw : w = writerId
    · -- the writer has nothing queued, so its fresh state constrains nothing
      subst hw
      obtain rfl := hL.eq_nil_of_queue hq
      exact ⟨[], hL.congr (List.Perm.refl _) (fun h => absurd rfl h) rfl rfl⟩
    · refine ⟨L, hL.congr (List.Perm.refl _) (fun _ writer' h' => ?_) rfl rfl⟩
      simp only [WfqScheduler.addWriter, AList.lookup_insert_ne hw] at h'
      exact ⟨writer', h', rfl, rfl⟩

theorem removeWriter (hinv : Fifo s A D) (writerId : WriterId) :
    Fifo (s.removeWriter writerId).1 A D where
  fifo w := by
    obtain ⟨L, hL⟩ := hinv.fifo w
    refine ⟨L, hL.congr (List.Perm.refl _) (fun _ writer' h' => ?_) rfl rfl⟩
    by_cases hw : w = writerId
    · subst hw
      simp [WfqScheduler.removeWriter] at h'
    · simp only [WfqScheduler.removeWriter, AList.lookup_erase_ne hw] at h'
      exact ⟨writer', h', rfl, rfl⟩

theorem setWeight (hinv : Fifo s A D) (writerId : WriterId) (weight : K) :
    Fifo (s.setWeight writerId weight).1 A D where
  fifo w := by
    obtain ⟨L, hL⟩ := hinv.fifo w
    refine ⟨L, hL.congr (List.Perm.refl _) (fun _ writer' h' => ?_) rfl rfl⟩
    by_cases hw : w = writerId
    · subst hw
      simp only [WfqScheduler.setWeight, AList.lookup_modify, Option.map_eq_some_iff] at h'
      obtain ⟨writer, hwriter, rfl⟩ := h'
      exact ⟨writer, hwriter, rfl, rfl⟩
    · simp only [WfqScheduler.setWeight, AList.lookup_modify_ne _ _ hw] at h'
      exact ⟨writer', h', rfl, rfl⟩

/-- An accepted packet whose finish tag comes out after its start tag goes last among its
writer's: it finishes after all of them. -/
theorem schedule (hinv : Fifo s A D) {writerId : WriterId} {writer : WfqWriter K} (data : T)
    {size : ℕ} (hw : s.writers.lookup writerId = some writer)
    (hlater : ¬(writer.activate s.virtualTime).virtualStart +
        (size : K) / (writer.activate s.virtualTime).weight ≤
      (writer.activate s.virtualTime).virtualStart) :
    Fifo (s.schedule H writerId (writer.activate s.virtualTime) data size)
      (A ++ [(writerId, data)]) D := by
  let wa := writer.activate s.virtualTime
  let p : WfqPacket K T := ⟨writerId, data, size, wa.virtualStart + (size : K) / wa.weight⟩
  have hlookup : (s.schedule H writerId wa data size).writers.lookup writerId =
      some { wa with virtualStart := p.finishTime, bytesScheduled := wa.bytesScheduled + size,
                     packetsScheduled := wa.packetsScheduled + 1 } :=
    AList.lookup_replace (AList.lookup_isSome.1 (by rw [hw]; rfl))
  have hqueue : ∀ w, ((s.schedule H writerId wa data size).queue.filter
      fun p => p.writerId == w).Perm ((p :: s.queue).filter fun p => p.writerId == w) :=
    fun w => (H.perm_push p s.queue).filter _
  have hlt : wa.virtualStart < p.finishTime := not_le.1 hlater
  refine ⟨fun w => ?_⟩
  obtain ⟨L, hL⟩ := hinv.fifo w
  by_cases hw' : w = writerId
  · subst hw'
    have hafter : ∀ q ∈ L, q.finishTime < p.finishTime := by
      intro q hq
      obtain ⟨hactive, hle⟩ := hL.writer writer hw (List.ne_nil_of_mem hq)
      have hwa : wa = writer := WfqWriter.activate_of_active hactive _
      exact lt_of_le_of_lt (hwa ▸ hle q hq) hlt
    refine ⟨L ++ [p], (hqueue w).trans ?_, ?_, ?_, fun writer' h' _ => ?_⟩
    · simp only [List.filter_cons, p, beq_self_eq_true, if_true]
      exact (hL.queued.cons p).trans (List.perm_append_singleton p L).symm
    · exact List.pairwise_append.2 ⟨hL.sorted, List.pairwise_singleton _ _,
        fun a ha b hb => (List.mem_singleton.1 hb) ▸ hafter a ha⟩
    · rw [List.filter_append, ← hL.ledger, List.map_append, ← List.append_assoc]
      simp [WfqPacket.entry, p]
    · rw [hlookup, Option.some.injEq] at h'
      subst h'
      refine ⟨WfqWriter.active_activate _ _, fun q hq => ?_⟩
      rcases List.mem_append.1 hq with hq | hq
      · exact (hafter q hq).le
      · rw [List.mem_singleton.1 hq]
  · refine ⟨L, hL.congr ((hqueue w).trans ?_) (fun _ writer' h' => ?_) ?_ rfl⟩
    · simp [p, Ne.symm hw']
    · rw [show (s.schedule H writerId wa data size).writers.lookup w = s.writers.lookup w from
        AList.lookup_replace_ne hw'] at h'
      exact ⟨writer', h', rfl, rfl⟩
    · simp [List.filter_append, Ne.symm hw']

/-- A popped packet of writer `w` is the first of `w`'s queued packets, since their finish
times increase and the heap pops an earliest one. -/
theorem dequeue (hmax : H.PopsMax WfqPacket.cmp) (hinv : Fifo s A D) {p : WfqPacket K T}
    {q : List (WfqPacket K T)} (hp : H.pop s.queue = some (p, q)) :
    Fifo (s.dequeue H).1 A (D ++ [p.entry]) := by
  obtain ⟨-, hqueue, hwriters⟩ := s.dequeue_of_pop_some H hp
  have hperm := H.perm_pop s.queue p q hp
  refine ⟨fun w => ?_⟩
  obtain ⟨L, hL⟩ := hinv.fifo w
  by_cases hw : p.writerId = w
  · subst hw
    have hpL : p ∈ L := hL.queued.mem_iff.1
      (List.mem_filter.2 ⟨hperm.mem_iff.2 (List.mem_cons_self ..), by simp⟩)
    obtain ⟨x, L', rfl⟩ := List.exists_cons_of_ne_nil (List.ne_nil_of_mem hpL)
    obtain ⟨rfl, hrest⟩ := HeapOps.pop_eq_head hmax (fun p' => p'.writerId == p.writerId) hp
      (by simp) hL.queued (hL.sorted.imp WfqPacket.cmp_eq_gt.2)
    refine ⟨L', hqueue ▸ hrest, hL.sorted.of_cons, ?_, fun writer' h' hL' => ?_⟩
    · rw [List.filter_append, ← hL.ledger]
      simp [WfqPacket.entry]
    · rw [hwriters, AList.lookup_modify, Option.map_eq_some_iff] at h'
      obtain ⟨writer, hwriter, rfl⟩ := h'
      obtain ⟨-, hle⟩ := hL.writer writer hwriter (List.cons_ne_nil _ _)
      -- another packet of the writer is still queued, so it stays active
      obtain ⟨y, hy⟩ := List.exists_mem_of_ne_nil _ hL'
      have hyq := List.mem_filter.1 (hrest.mem_iff.2 hy)
      exact ⟨List.any_eq_true.2 ⟨y, hyq.1, hyq.2⟩,
        fun z hz => hle z (List.mem_cons_of_mem _ hz)⟩
  · refine ⟨L, hL.congr ?_ (fun _ writer' h' => ?_) rfl ?_⟩
    · rw [hqueue]
      have := hperm.filter fun p' => p'.writerId == w
      simp only [List.filter_cons, hw, beq_iff_eq, if_false] at this
      exact this.symm
    · rw [hwriters, AList.lookup_modify_ne _ _ (Ne.symm hw)] at h'
      exact ⟨writer', h', rfl, rfl⟩
    · simp [List.filter_append, WfqPacket.entry, hw]

/-- Draining a writer returns its queued packets in the order they were accepted. -/
theorem drainWriter (hmax : H.PopsMax WfqPacket.cmp) (hinv : Fifo s A D) (writerId : WriterId) :
    Fifo (s.drainWriter H writerId).1 A
      (D ++ (s.drainWriter H writerId).2.map fun d => (writerId, d)) := by
  obtain ⟨L₀, hL₀⟩ := hinv.fifo writerId
  have htaken : (H.drainBy (fun p => p.writerId == writerId) s.queue [] []).1 = L₀ := by
    simpa using HeapOps.drainBy_fst hmax _ s.queue [] [] L₀ hL₀.queued
      (hL₀.sorted.imp WfqPacket.cmp_eq_gt.2)
  obtain ⟨-, -, -, hrem⟩ := H.drainBy_perm (fun p => p.writerId == writerId) s.queue [] []
  have hdel : ((s.drainWriter H writerId).2.map fun d => (writerId, d)) =
      L₀.map WfqPacket.entry := by
    simp only [WfqScheduler.drainWriter, htaken, List.map_map]
    refine List.map_congr_left fun p hp => ?_
    simp [WfqPacket.entry, hL₀.mem_writerId hp]
  have hqueue : ∀ w, (((s.drainWriter H writerId).1.queue.filter fun p => p.writerId == w)).Perm
      ((s.queue.filter fun p => !(p.writerId == writerId)).filter fun p => p.writerId == w) := by
    intro w
    have := hrem.filter fun p => p.writerId == w
    rwa [List.append_nil] at this
  refine ⟨fun w => ?_⟩
  rw [hdel]
  obtain ⟨L, hL⟩ := hinv.fifo w
  by_cases hw : w = writerId
  · subst hw
    refine ⟨[], ?_, List.Pairwise.nil, ?_, fun _ _ h => absurd rfl h⟩
    · refine (hqueue w).trans ?_
      simp [List.filter_filter]
    · rw [List.filter_append, ← hL₀.ledger, List.map_nil, List.append_nil]
      congr 1
      refine List.filter_eq_self.2 fun e he => ?_
      obtain ⟨p, hp, rfl⟩ := List.mem_map.1 he
      simp [WfqPacket.entry, hL₀.mem_writerId hp]
  · -- the other writers' packets were pushed back untouched
    have hkeep : ((s.queue.filter fun p => !(p.writerId == writerId)).filter
        fun p => p.writerId == w) = s.queue.filter fun p => p.writerId == w := by
      rw [List.filter_filter]
      refine List.filter_congr fun p _ => ?_
      by_cases hp : p.writerId = w <;> simp [hp, hw]
    refine ⟨L, hL.congr (hkeep ▸ hqueue w) (fun _ writer' h' => ?_) rfl ?_⟩
    · simp only [WfqScheduler.drainWriter] at h'
      rw [AList.lookup_modify_ne _ _ hw] at h'
      exact ⟨writer', h', rfl, rfl⟩
    · have hnone : (L₀.map WfqPacket.entry).filter (fun e => e.1 == w) = [] := by
        refine List.filter_eq_nil_iff.2 fun e he => ?_
        obtain ⟨p, hp, rfl⟩ := List.mem_map.1 he
        simp [WfqPacket.entry, hL₀.mem_writerId hp, Ne.symm hw]
      rw [List.filter_append, hnone, List.append_nil]

theorem resetVirtualTime (hinv : Fifo s A D) : Fifo s.resetVirtualTime A D := by
  unfold WfqScheduler.resetVirtualTime
  split
  · -- nothing is queued, so no writer constrains its virtual start
    rename_i hempty
    have hq : ∀ p ∈ s.queue, ∀ w, p.writerId ≠ w := by
      simp [List.isEmpty_iff.1 hempty]
    refine ⟨fun w => ?_⟩
    obtain ⟨L, hL⟩ := hinv.fifo w
    obtain rfl := hL.eq_nil_of_queue fun p hp => hq p hp w
    exact ⟨[], hL.congr (List.Perm.refl _) (fun h => absurd rfl h) rfl rfl⟩
  · exact hinv

/-- One call covered by `admits` keeps the invariant. -/
theorem step (hmax : H.PopsMax WfqPacket.cmp) (hinv : Fifo s A D) {c : WfqCall K T}
    (hc : s.admits c = true) :
    Fifo (s.step H c).1 (A ++ c.accepted (s.step H c).2) (D ++ c.delivered (s.step H c).2) := by
  cases c with
  | addWriter writerId weight =>
    simp only [WfqScheduler.admits, List.all_eq_true, bne_iff_ne] at hc
    simpa [WfqScheduler.step, WfqCall.accepted, WfqCall.delivered] using hinv.addWriter weight hc
  | removeWriter writerId =>
    simpa [WfqScheduler.step, WfqCall.accepted, WfqCall.delivered] using hinv.removeWriter writerId
  | setWeight writerId weight =>
    simpa [WfqScheduler.step, WfqCall.accepted, WfqCall.delivered] using
      hinv.setWeight writerId weight
  | enqueue writerId data size =>
    cases h : s.enqueue H writerId data size with
    | error e => simpa [WfqScheduler.step, h, WfqCall.accepted, WfqCall.delivered] using hinv
    | ok s' =>
      obtain ⟨-, writer, hw, rfl⟩ := s.enqueue_eq_ok H h
      simp only [WfqScheduler.admits, hw, Bool.not_eq_true', decide_eq_false_iff_not] at hc
      simpa [WfqScheduler.step, h, WfqCall.accepted, WfqCall.delivered] using
        hinv.schedule H data hw hc
  | dequeue =>
    cases hp : H.pop s.queue with
    | none =>
      simpa [WfqScheduler.step, s.dequeue_of_pop_none H hp, WfqCall.accepted,
        WfqCall.delivered] using hinv
    | some r =>
      obtain ⟨p, q⟩ := r
      simpa [WfqScheduler.step, (s.dequeue_of_pop_some H hp).1, WfqCall.accepted,
        WfqCall.delivered] using hinv.dequeue H hmax hp
  | drainWriter writerId =>
    simpa [WfqScheduler.step, WfqCall.accepted, WfqCall.delivered] using
      hinv.drainWriter H hmax writerId
  | resetVirtualTime =>
    simpa [WfqScheduler.step, WfqCall.accepted, WfqCall.delivered] using hinv.resetVirtualTime

/-- A run of covered calls keeps the invariant. -/
theorem run (hmax : H.PopsMax WfqPacket.cmp) (hinv : Fifo s A D) (calls : List (WfqCall K T))
    (hadm : s.admissible H calls = true) :
    Fifo (s.run H calls).final (A ++ (s.run H calls).accepted)
      (D ++ (s.run H calls).delivered) := by
  induction calls generalizing s A D with
  | nil => simpa [WfqScheduler.run] using hinv
  | cons c calls ih =>
    simp only [WfqScheduler.admissible, Bool.and_eq_true] at hadm
    have := ih (hinv.step H hmax hadm.1) hadm.2
    simpa [WfqScheduler.run, List.append_assoc] using this

end Fifo

end Ordered

/-! ## Where the order breaks -/

section Field

variable {K : Type} [Field K] [LinearOrder K] [IsStrictOrderedRing K] {T : Type}

theorem minWeight_pos : (0 : K) < 0.1 := by
  rw [NNRatCast.toOfScientific_def]
  exact NNRat.cast_pos.2 (NNRat.coe_pos.1 (by decide +kernel))

end Field

end Hdds.Congestion
