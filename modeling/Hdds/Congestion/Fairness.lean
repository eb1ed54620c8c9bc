import Mathlib
import Hdds.Congestion.Wfq
import Hdds.Foundations.TagChain

/-! # The fairness bound of the WFQ scheduler

`congestion/wfq.rs` is self-clocked fair queueing: a backlogged writer stamps each packet with
the tag of the one before plus `size / weight`, an idle writer starts again from the virtual
time, and the virtual time is the largest tag popped. With exact arithmetic, from any scheduler
reached by calls none of which is an `add_writer` or `set_weight` of a writer with packets
queued, with at most `L` bytes per `enqueue`, over any run of `add_writer` of idle writers,
`enqueue` and `dequeue` during which writers `i` and `j` both keep a packet queued, the bytes
`S_i` and `S_j` dequeued for them satisfy `|S_i / w_i - S_j / w_j| ≤ L / w_i + L / w_j`
(`wfq_fairness_bound`). Re-adding or re-weighting a writer with packets queued leaves them with
tags its new record does not continue, and the bound fails.

The start tag of a writer is its virtual start less its queued bytes over its weight: the tag
before its first queued packet. While the writer stays backlogged it rises by `size / weight`
with each of its packets dequeued and nothing else moves it (`startTag_run`). It lies within
`L / weight` below the virtual time (`Fair.startTag_le`, `Fair.le_startTag`), since the queued
packets of a writer carry the running tags from it (`Backlog`) and no queued tag is below the
virtual time.
-/

namespace Hdds.Congestion
set_option autoImplicit false
set_option linter.unusedSectionVars false

variable {K : Type} [Field K] [LinearOrder K] [IsStrictOrderedRing K] {T : Type}

/-- The bytes of writer `w` a call returned: the size of the packet `dequeue` popped for it. -/
def WfqCall.dequeuedBytes (w : WriterId) : WfqCall K T → WfqReply K T → ℕ
  | .dequeue, .dequeued (some p) => if p.writerId = w then p.size else 0
  | _, _ => 0

/-- What a packet costs a writer of weight `weight` in virtual time. -/
def WfqPacket.cost (weight : K) (p : WfqPacket K T) : K :=
  (p.size : K) / weight

namespace WfqScheduler

variable (H : HeapOps (WfqPacket K T))

/-- The calls the bound covers: `add_writer` of a writer with no packet queued, `enqueue` of at
most `L` bytes, and `dequeue`. The weights stay as they are. -/
def fairAdmits (L : ℕ) (s : WfqScheduler K T) : WfqCall K T → Bool
  | .addWriter writerId _ => s.queue.all fun p => p.writerId != writerId
  | .enqueue _ _ size => decide (size ≤ L)
  | .dequeue => true
  | _ => false

/-- Every call of the run is covered, in the state it meets. -/
def fairAdmissible (L : ℕ) : WfqScheduler K T → List (WfqCall K T) → Bool
  | _, [] => true
  | s, c :: calls => s.fairAdmits L c && fairAdmissible L (s.step H c).1 calls

/-- The calls a scheduler may have met before the stretch the bound is about: any call except
`add_writer` or `set_weight` of a writer with a packet queued, with at most `L` bytes per
`enqueue`. -/
def reachAdmits (L : ℕ) (s : WfqScheduler K T) : WfqCall K T → Bool
  | .addWriter writerId _ => s.queue.all fun p => p.writerId != writerId
  | .setWeight writerId _ => s.queue.all fun p => p.writerId != writerId
  | .enqueue _ _ size => decide (size ≤ L)
  | .removeWriter _ | .dequeue | .drainWriter _ | .resetVirtualTime => true

theorem reachAdmits_of_fairAdmits {L : ℕ} {s : WfqScheduler K T} {c : WfqCall K T}
    (h : s.fairAdmits L c = true) : s.reachAdmits L c = true := by
  cases c <;> simp_all [fairAdmits, reachAdmits]

/-- The schedulers a new one reaches by the calls `reachAdmits` allows. -/
inductive FairlyReachable (L : ℕ) : WfqScheduler K T → Prop
  | init (maxSize : ℕ) : FairlyReachable L (withMaxQueue maxSize)
  | step {s : WfqScheduler K T} {c : WfqCall K T} :
    FairlyReachable L s → s.reachAdmits L c = true → FairlyReachable L (s.step H c).1

/-- Writer `w` has a packet queued. -/
def hasQueued (s : WfqScheduler K T) (w : WriterId) : Bool :=
  s.queue.any fun p => p.writerId == w

/-- The bytes writer `w` has queued. -/
def queuedBytes (s : WfqScheduler K T) (w : WriterId) : ℕ :=
  ((s.queue.filter fun p => p.writerId == w).map (·.size)).sum

/-- The tag before the first queued packet of writer `w`, whose record is `writer`. -/
def startTag (s : WfqScheduler K T) (w : WriterId) (writer : WfqWriter K) : K :=
  writer.virtualStart - (s.queuedBytes w : K) / writer.weight

/-- Writer `w` has a packet queued before every call of the run and after the last. -/
def backloggedAlong (w : WriterId) : WfqScheduler K T → List (WfqCall K T) → Bool
  | s, [] => s.hasQueued w
  | s, c :: calls => s.hasQueued w && backloggedAlong w (s.step H c).1 calls

/-- The bytes of writer `w` the run dequeued. -/
def bytesDequeued (w : WriterId) : WfqScheduler K T → List (WfqCall K T) → ℕ
  | _, [] => 0
  | s, c :: calls => c.dequeuedBytes w (s.step H c).2 + bytesDequeued w (s.step H c).1 calls

end WfqScheduler

/-! ## Queues of packets -/

section Queues

variable {w : WriterId} {p : WfqPacket K T} {l l' : List (WfqPacket K T)}

theorem cost_nonneg {weight : K} (hpos : 0 < weight) (p : WfqPacket K T) : 0 ≤ p.cost weight :=
  div_nonneg (Nat.cast_nonneg _) hpos.le

theorem sum_map_cost (weight : K) (l : List (WfqPacket K T)) :
    (l.map (WfqPacket.cost weight)).sum = (((l.map (·.size)).sum : ℕ) : K) / weight := by
  rw [Nat.cast_list_sum, List.map_map, div_eq_mul_inv, ← List.sum_map_mul_right]
  exact congrArg List.sum (List.map_congr_left fun p _ => div_eq_mul_inv _ _)

theorem any_iff_ne_nil {Q : List (WfqPacket K T)} (h : (l.filter fun p => p.writerId == w).Perm Q) :
    (l.any fun p => p.writerId == w) = true ↔ Q ≠ [] := by
  have hnil : Q = [] ↔ (l.filter fun p => p.writerId == w) = [] :=
    ⟨fun hQ => List.perm_nil.1 (hQ ▸ h), fun hf => List.perm_nil.1 (hf ▸ h.symm)⟩
  rw [Ne, hnil, List.filter_eq_nil_iff, List.any_eq_true]
  simp

theorem filter_perm_of_ne (h : l'.Perm (p :: l)) (hw : p.writerId ≠ w) :
    (l'.filter fun x => x.writerId == w).Perm (l.filter fun x => x.writerId == w) := by
  simpa [List.filter_cons, hw] using h.filter fun x => x.writerId == w

theorem filter_perm_of_eq (h : l'.Perm (p :: l)) (hw : p.writerId = w) :
    (l'.filter fun x => x.writerId == w).Perm (p :: l.filter fun x => x.writerId == w) := by
  simpa [List.filter_cons, hw] using h.filter fun x => x.writerId == w

end Queues

namespace WfqScheduler

variable {H : HeapOps (WfqPacket K T)} {s s' : WfqScheduler K T} {w : WriterId}

theorem queuedBytes_of_perm {p : WfqPacket K T} (h : s'.queue.Perm (p :: s.queue)) (w : WriterId) :
    s'.queuedBytes w = s.queuedBytes w + if p.writerId = w then p.size else 0 := by
  by_cases hw : p.writerId = w
  · rw [queuedBytes, ((filter_perm_of_eq h hw).map _).sum_eq, if_pos hw, queuedBytes,
      List.map_cons, List.sum_cons, Nat.add_comm]
  · rw [queuedBytes, ((filter_perm_of_ne h hw).map _).sum_eq, if_neg hw, Nat.add_zero,
      queuedBytes]

theorem hasQueued_of_backloggedAlong {calls : List (WfqCall K T)}
    (h : s.backloggedAlong H w calls = true) : s.hasQueued w = true := by
  cases calls with
  | nil => exact h
  | cons c calls => exact (Bool.and_eq_true _ _ ▸ h).1

theorem virtualTime_dequeue {p : WfqPacket K T} {q : List (WfqPacket K T)}
    (hp : H.pop s.queue = some (p, q)) :
    (s.dequeue H).1.virtualTime = max s.virtualTime p.finishTime := by
  simp only [dequeue, hp]

/-- The heap pops an earliest finish time. -/
theorem finishTime_le_of_pop (hmax : H.PopsMax WfqPacket.cmp) {p : WfqPacket K T}
    {q : List (WfqPacket K T)} (hp : H.pop s.queue = some (p, q)) :
    ∀ b ∈ q, p.finishTime ≤ b.finishTime :=
  fun b hb => not_lt.1 fun hlt => hmax _ _ _ hp b hb (WfqPacket.cmp_eq_gt.2 hlt)

end WfqScheduler

/-! ## The invariant -/

namespace WfqScheduler

/-- Writer `w`, whose record is `writer`: its queued packets, listed as `Q`, carry the running
tags from `base`, ending at its virtual start; the writer is active exactly when one is queued,
and `base` is then not past the virtual time. -/
structure Backlog (s : WfqScheduler K T) (w : WriterId) (writer : WfqWriter K) (base : K)
    (Q : List (WfqPacket K T)) : Prop where
  queued : (s.queue.filter fun p => p.writerId == w).Perm Q
  chain : IsTagChain WfqPacket.finishTime (WfqPacket.cost writer.weight) base Q
  virtualStart_eq : writer.virtualStart = base + (Q.map (WfqPacket.cost writer.weight)).sum
  active_iff : writer.active = true ↔ Q ≠ []
  base_le : Q ≠ [] → base ≤ s.virtualTime

/-- The invariant of the covered runs: registered writers have positive weights, no queued
packet finishes before the virtual time or holds more than `L` bytes, and every registered
writer's packets carry its running tags. -/
structure Fair (L : ℕ) (s : WfqScheduler K T) : Prop where
  weight_pos : ∀ w writer, s.writers.lookup w = some writer → 0 < writer.weight
  le_finishTime : ∀ p ∈ s.queue, s.virtualTime ≤ p.finishTime
  size_le : ∀ p ∈ s.queue, p.size ≤ L
  backlog : ∀ w writer, s.writers.lookup w = some writer → ∃ base Q, Backlog s w writer base Q

namespace Backlog

variable {s s' : WfqScheduler K T} {w : WriterId} {writer : WfqWriter K} {base : K}
  {Q : List (WfqPacket K T)}

theorem mem_queue (h : Backlog s w writer base Q) {p : WfqPacket K T} (hp : p ∈ Q) :
    p ∈ s.queue ∧ p.writerId = w := by
  have := List.mem_filter.1 (h.queued.mem_iff.2 hp)
  exact ⟨this.1, by simpa using this.2⟩

theorem hasQueued_iff (h : Backlog s w writer base Q) : s.hasQueued w = true ↔ Q ≠ [] :=
  any_iff_ne_nil h.queued

theorem startTag_eq (h : Backlog s w writer base Q) : s.startTag w writer = base := by
  rw [startTag, queuedBytes, (h.queued.map _).sum_eq, h.virtualStart_eq, sum_map_cost,
    add_sub_cancel_right]

/-- A call that keeps the writer's packets and its record, and does not move the virtual time
back, keeps its backlog. -/
theorem congr (h : Backlog s w writer base Q)
    (hq : (s'.queue.filter fun p => p.writerId == w).Perm (s.queue.filter fun p => p.writerId == w))
    (hvt : s.virtualTime ≤ s'.virtualTime) : Backlog s' w writer base Q where
  queued := hq.trans h.queued
  chain := h.chain
  virtualStart_eq := h.virtualStart_eq
  active_iff := h.active_iff
  base_le hQ := (h.base_le hQ).trans hvt

/-- A packet stamped after the last of an active writer's goes at the end of its chain. -/
theorem push_active (h : Backlog s w writer base Q) (hactive : writer.active = true)
    {p : WfqPacket K T} (hq : s'.queue.Perm (p :: s.queue)) (hp : p.writerId = w)
    (hvt : s'.virtualTime = s.virtualTime) {r : WfqWriter K} (hweight : r.weight = writer.weight)
    (hfinish : p.finishTime = writer.virtualStart + p.cost writer.weight)
    (hstart : r.virtualStart = p.finishTime) (hr : r.active = true) :
    Backlog s' w r base (Q ++ [p]) where
  queued := (filter_perm_of_eq hq hp).trans
    ((h.queued.cons p).trans (List.perm_append_singleton p Q).symm)
  chain := by
    rw [hweight]
    apply h.chain.append_singleton
    rw [hfinish, h.virtualStart_eq]
  virtualStart_eq := by
    rw [hweight, hstart, hfinish, h.virtualStart_eq, List.map_append, List.sum_append,
      List.map_singleton, List.sum_singleton, add_assoc]
  active_iff := by simp [hr]
  base_le _ := hvt ▸ h.base_le (h.active_iff.1 hactive)

/-- A packet of an idle writer, which has none queued, starts its chain at the virtual time. -/
theorem push_idle (h : Backlog s w writer base Q) (hactive : writer.active = false)
    {p : WfqPacket K T} (hq : s'.queue.Perm (p :: s.queue)) (hp : p.writerId = w)
    (hvt : s'.virtualTime = s.virtualTime) {r : WfqWriter K} (hweight : r.weight = writer.weight)
    (hfinish : p.finishTime = s.virtualTime + p.cost writer.weight)
    (hstart : r.virtualStart = p.finishTime) (hr : r.active = true) :
    Backlog s' w r s.virtualTime [p] where
  queued := by
    have hQ : Q = [] := by simpa [hactive] using h.active_iff
    have hnil : (s.queue.filter fun p => p.writerId == w) = [] := List.perm_nil.1 (hQ ▸ h.queued)
    simpa [hnil] using filter_perm_of_eq hq hp
  chain := by
    rw [hweight]
    exact ⟨hfinish, trivial⟩
  virtualStart_eq := by
    rw [hweight, hstart, hfinish, List.map_singleton, List.sum_singleton]
  active_iff := by simp [hr]
  base_le _ := hvt.ge

end Backlog

namespace Fair

variable (H : HeapOps (WfqPacket K T)) {L : ℕ} {s : WfqScheduler K T}

theorem withMaxQueue (L maxSize : ℕ) : Fair L (withMaxQueue maxSize : WfqScheduler K T) where
  weight_pos w writer h := by simp [WfqScheduler.withMaxQueue] at h
  le_finishTime p hp := by simp [WfqScheduler.withMaxQueue] at hp
  size_le p hp := by simp [WfqScheduler.withMaxQueue] at hp
  backlog w writer h := by simp [WfqScheduler.withMaxQueue] at h

/-- The virtual start an enqueued packet is stamped from is not before the virtual time: it is
the virtual time for an idle writer, and the tag of its last queued packet for an active one. -/
theorem le_virtualStart_activate (hinv : Fair L s) {w : WriterId} {writer : WfqWriter K}
    (hw : s.writers.lookup w = some writer) :
    s.virtualTime ≤ (writer.activate s.virtualTime).virtualStart := by
  obtain ⟨base, Q, hb⟩ := hinv.backlog w writer hw
  cases hactive : writer.active with
  | false => simp [WfqWriter.activate, hactive]
  | true =>
    rw [WfqWriter.activate_of_active hactive]
    obtain ⟨a, ha, htag⟩ := hb.chain.exists_tag_eq_sum (hb.active_iff.1 hactive)
    rw [hb.virtualStart_eq, ← htag]
    exact hinv.le_finishTime a (hb.mem_queue ha).1

theorem addWriter (hinv : Fair L s) {writerId : WriterId} (weight : K)
    (hq : ∀ p ∈ s.queue, p.writerId ≠ writerId) : Fair L (s.addWriter writerId weight) where
  weight_pos w writer h := by
    by_cases hw : w = writerId
    · subst hw
      simp only [WfqScheduler.addWriter, AList.lookup_insert, Option.some.injEq] at h
      subst h
      exact lt_max_of_lt_right minWeight_pos
    · simp only [WfqScheduler.addWriter, AList.lookup_insert_ne hw] at h
      exact hinv.weight_pos w writer h
  le_finishTime := hinv.le_finishTime
  size_le := hinv.size_le
  backlog w writer h := by
    by_cases hw : w = writerId
    · -- a fresh writer, idle, with nothing queued
      subst hw
      simp only [WfqScheduler.addWriter, AList.lookup_insert, Option.some.injEq] at h
      subst h
      have hnil : (s.queue.filter fun p => p.writerId == w) = [] :=
        List.filter_eq_nil_iff.2 fun p hp => by simpa using hq p hp
      refine ⟨0, [], ⟨?_, trivial, ?_, ?_, fun h => absurd rfl h⟩⟩
      · rw [WfqScheduler.addWriter, hnil]
      · simp [WfqWriter.new]
      · simp [WfqWriter.new]
    · simp only [WfqScheduler.addWriter, AList.lookup_insert_ne hw] at h
      obtain ⟨base, Q, hb⟩ := hinv.backlog w writer h
      exact ⟨base, Q, hb.congr (List.Perm.refl _) le_rfl⟩

/-- An enqueued packet goes at the end of its writer's chain, which starts at the virtual time
if the writer was idle. -/
theorem schedule (hinv : Fair L s) {writerId : WriterId} {writer : WfqWriter K} (data : T)
    {size : ℕ} (hw : s.writers.lookup writerId = some writer) (hsize : size ≤ L) :
    Fair L (s.schedule H writerId (writer.activate s.virtualTime) data size) := by
  let wa := writer.activate s.virtualTime
  let p : WfqPacket K T := ⟨writerId, data, size, wa.virtualStart + (size : K) / wa.weight⟩
  let wa' : WfqWriter K :=
    { wa with virtualStart := p.finishTime, bytesScheduled := wa.bytesScheduled + size,
              packetsScheduled := wa.packetsScheduled + 1 }
  have hlookup : (s.schedule H writerId wa data size).writers.lookup writerId = some wa' :=
    AList.lookup_replace (AList.lookup_isSome.1 (by rw [hw]; rfl))
  have hqueue : (s.schedule H writerId wa data size).queue.Perm (p :: s.queue) :=
    H.perm_push p s.queue
  have hweight : wa'.weight = writer.weight := WfqWriter.weight_activate _ _
  have hwpos : 0 < writer.weight := hinv.weight_pos _ _ hw
  have hp : s.virtualTime ≤ p.finishTime :=
    (hinv.le_virtualStart_activate hw).trans
      (le_add_of_nonneg_right (hweight ▸ cost_nonneg hwpos p))
  refine ⟨fun w writer' h => ?_, fun x hx => ?_, fun x hx => ?_, fun w writer' h => ?_⟩
  · by_cases hw' : w = writerId
    · subst hw'
      rw [hlookup, Option.some.injEq] at h
      rw [← h, hweight]
      exact hwpos
    · rw [show (s.schedule H writerId wa data size).writers.lookup w = s.writers.lookup w from
        AList.lookup_replace_ne hw'] at h
      exact hinv.weight_pos w writer' h
  · rcases List.mem_cons.1 (hqueue.mem_iff.1 hx) with rfl | hx
    · exact hp
    · exact hinv.le_finishTime x hx
  · rcases List.mem_cons.1 (hqueue.mem_iff.1 hx) with rfl | hx
    · exact hsize
    · exact hinv.size_le x hx
  by_cases hw' : w = writerId
  · subst hw'
    rw [hlookup, Option.some.injEq] at h
    subst h
    obtain ⟨base, Q, hb⟩ := hinv.backlog w writer hw
    have hcost : p.cost writer.weight = (size : K) / wa.weight := by
      rw [WfqWriter.weight_activate]
      rfl
    cases hactive : writer.active with
    | true =>
      have hwa : wa = writer := WfqWriter.activate_of_active hactive _
      refine ⟨base, Q ++ [p], hb.push_active hactive hqueue rfl rfl hweight ?_ rfl
        (WfqWriter.active_activate _ _)⟩
      rw [hcost]
      show wa.virtualStart + (size : K) / wa.weight = _
      rw [hwa]
    | false =>
      have hwa : wa.virtualStart = s.virtualTime := by simp [wa, WfqWriter.activate, hactive]
      refine ⟨s.virtualTime, [p], hb.push_idle hactive hqueue rfl rfl hweight ?_ rfl
        (WfqWriter.active_activate _ _)⟩
      rw [hcost, ← hwa]
  · rw [show (s.schedule H writerId wa data size).writers.lookup w = s.writers.lookup w from
      AList.lookup_replace_ne hw'] at h
    obtain ⟨base, Q, hb⟩ := hinv.backlog w writer' h
    exact ⟨base, Q, hb.congr (filter_perm_of_ne hqueue (Ne.symm hw')) le_rfl⟩

/-- A dequeued packet leaves its writer's chain, whose base moves past it. -/
theorem dequeue (hmax : H.PopsMax WfqPacket.cmp) (hinv : Fair L s) {p : WfqPacket K T}
    {q : List (WfqPacket K T)} (hp : H.pop s.queue = some (p, q)) : Fair L (s.dequeue H).1 := by
  obtain ⟨-, hqueue, hwriters⟩ := s.dequeue_of_pop_some H hp
  have hperm := H.perm_pop s.queue p q hp
  have hvt := s.virtualTime_dequeue hp
  have hleast := s.finishTime_le_of_pop hmax hp
  refine ⟨fun w writer' h => ?_, fun x hx => ?_, fun x hx => ?_, fun w writer' h => ?_⟩
  · rw [hwriters] at h
    by_cases hw : w = p.writerId
    · subst hw
      rw [AList.lookup_modify, Option.map_eq_some_iff] at h
      obtain ⟨writer, hwriter, rfl⟩ := h
      exact hinv.weight_pos _ writer hwriter
    · rw [AList.lookup_modify_ne _ _ hw] at h
      exact hinv.weight_pos w writer' h
  · rw [hqueue] at hx
    rw [hvt]
    exact max_le (hinv.le_finishTime x (hperm.mem_iff.2 (List.mem_cons_of_mem _ hx))) (hleast x hx)
  · rw [hqueue] at hx
    exact hinv.size_le x (hperm.mem_iff.2 (List.mem_cons_of_mem _ hx))
  rw [hwriters] at h
  by_cases hw : w = p.writerId
  · subst hw
    rw [AList.lookup_modify, Option.map_eq_some_iff] at h
    obtain ⟨writer, hwriter, rfl⟩ := h
    obtain ⟨base, Q, hb⟩ := hinv.backlog _ writer hwriter
    have hwpos := hinv.weight_pos _ writer hwriter
    -- the popped packet sits somewhere in its writer's chain, with no earlier tag before it
    have hpQ : p ∈ Q := hb.queued.mem_iff.1 (List.mem_filter.2 ⟨hperm.mem_iff.2
      List.mem_cons_self, by simp⟩)
    obtain ⟨l₁, l₂, rfl⟩ := List.append_of_mem hpQ
    have hrest : (q.filter fun x => x.writerId == p.writerId).Perm (l₁ ++ l₂) :=
      List.Perm.cons_inv ((filter_perm_of_eq hperm rfl).symm.trans
        (hb.queued.trans List.perm_middle))
    have hcosts : ∀ x ∈ l₁ ++ p :: l₂, 0 ≤ x.cost writer.weight := fun x _ => cost_nonneg hwpos x
    refine ⟨base + p.cost writer.weight, l₁ ++ l₂, ⟨hqueue ▸ hrest, ?_, ?_, ?_, fun _ => ?_⟩⟩
    · exact hb.chain.remove_least hcosts
        fun x hx => hleast x (List.mem_of_mem_filter (hrest.mem_iff.2 (List.mem_append_left _ hx)))
    · show writer.virtualStart = _
      rw [hb.virtualStart_eq]
      simp only [List.map_append, List.map_cons, List.sum_append, List.sum_cons]
      ring
    · exact any_iff_ne_nil hrest
    · rw [hvt]
      exact (hb.chain.le_tag hcosts p hpQ).trans (le_max_right _ _)
  · rw [AList.lookup_modify_ne _ _ hw] at h
    obtain ⟨base, Q, hb⟩ := hinv.backlog w writer' h
    refine ⟨base, Q, hb.congr ?_ (hvt ▸ le_max_left _ _)⟩
    rw [hqueue]
    exact (filter_perm_of_ne hperm (Ne.symm hw)).symm

/-- A removed writer's packets stay queued with their tags; no registered writer's change. -/
theorem removeWriter (hinv : Fair L s) (writerId : WriterId) :
    Fair L (s.removeWriter writerId).1 where
  weight_pos w writer h := by
    by_cases hw : w = writerId
    · subst hw
      simp [WfqScheduler.removeWriter] at h
    · simp only [WfqScheduler.removeWriter, AList.lookup_erase_ne hw] at h
      exact hinv.weight_pos w writer h
  le_finishTime := hinv.le_finishTime
  size_le := hinv.size_le
  backlog w writer h := by
    by_cases hw : w = writerId
    · subst hw
      simp [WfqScheduler.removeWriter] at h
    · simp only [WfqScheduler.removeWriter, AList.lookup_erase_ne hw] at h
      obtain ⟨base, Q, hb⟩ := hinv.backlog w writer h
      exact ⟨base, Q, hb.congr (List.Perm.refl _) le_rfl⟩

/-- A writer with nothing queued has an empty chain, which holds whatever its weight. -/
theorem setWeight (hinv : Fair L s) {writerId : WriterId} (weight : K)
    (hq : ∀ p ∈ s.queue, p.writerId ≠ writerId) : Fair L (s.setWeight writerId weight).1 where
  weight_pos w writer h := by
    by_cases hw : w = writerId
    · subst hw
      simp only [WfqScheduler.setWeight, AList.lookup_modify, Option.map_eq_some_iff] at h
      obtain ⟨_, -, rfl⟩ := h
      exact lt_max_of_lt_right minWeight_pos
    · simp only [WfqScheduler.setWeight, AList.lookup_modify_ne _ _ hw] at h
      exact hinv.weight_pos w writer h
  le_finishTime := hinv.le_finishTime
  size_le := hinv.size_le
  backlog w writer' h := by
    by_cases hw : w = writerId
    · subst hw
      simp only [WfqScheduler.setWeight, AList.lookup_modify, Option.map_eq_some_iff] at h
      obtain ⟨writer, hwriter, rfl⟩ := h
      obtain ⟨base, Q, hb⟩ := hinv.backlog w writer hwriter
      have hnil : (s.queue.filter fun p => p.writerId == w) = [] :=
        List.filter_eq_nil_iff.2 fun p hp => by simpa using hq p hp
      have hQ : Q = [] := List.perm_nil.1 (hnil ▸ hb.queued).symm
      subst hQ
      exact ⟨writer.virtualStart, [], ⟨by rw [WfqScheduler.setWeight, hnil], trivial,
        by simp, hb.active_iff, fun h => absurd rfl h⟩⟩
    · simp only [WfqScheduler.setWeight, AList.lookup_modify_ne _ _ hw] at h
      obtain ⟨base, Q, hb⟩ := hinv.backlog w writer' h
      exact ⟨base, Q, hb.congr (List.Perm.refl _) le_rfl⟩

/-- Draining a writer empties its chain and leaves every other writer's packets queued. -/
theorem drainWriter (hinv : Fair L s) (writerId : WriterId) :
    Fair L (s.drainWriter H writerId).1 := by
  obtain ⟨-, -, -, hrem⟩ := H.drainBy_perm (fun p => p.writerId == writerId) s.queue [] []
  rw [List.append_nil] at hrem
  have hmem : ∀ x ∈ (s.drainWriter H writerId).1.queue, x ∈ s.queue ∧ x.writerId ≠ writerId :=
    fun x hx => by simpa using List.mem_filter.1 (hrem.mem_iff.1 hx)
  -- the writers' packets after the drain, filtered once more by writer
  have hqueue : ∀ w, ((s.drainWriter H writerId).1.queue.filter fun p => p.writerId == w).Perm
      ((s.queue.filter fun p => !(p.writerId == writerId)).filter fun p => p.writerId == w) :=
    fun w => hrem.filter _
  refine ⟨fun w writer' h => ?_, fun x hx => hinv.le_finishTime x (hmem x hx).1,
    fun x hx => hinv.size_le x (hmem x hx).1, fun w writer' h => ?_⟩
  · simp only [WfqScheduler.drainWriter] at h
    by_cases hw : w = writerId
    · subst hw
      rw [AList.lookup_modify, Option.map_eq_some_iff] at h
      obtain ⟨writer, hwriter, rfl⟩ := h
      exact hinv.weight_pos _ writer hwriter
    · rw [AList.lookup_modify_ne _ _ hw] at h
      exact hinv.weight_pos w writer' h
  simp only [WfqScheduler.drainWriter] at h
  by_cases hw : w = writerId
  · subst hw
    rw [AList.lookup_modify, Option.map_eq_some_iff] at h
    obtain ⟨writer, -, rfl⟩ := h
    have hnil : ((s.drainWriter H w).1.queue.filter fun p => p.writerId == w) = [] :=
      List.filter_eq_nil_iff.2 fun p hp => by simpa using (hmem p hp).2
    exact ⟨writer.virtualStart, [], ⟨by rw [hnil], trivial, by simp, by simp,
      fun h => absurd rfl h⟩⟩
  · rw [AList.lookup_modify_ne _ _ hw] at h
    obtain ⟨base, Q, hb⟩ := hinv.backlog w writer' h
    have hkeep : ((s.queue.filter fun p => !(p.writerId == writerId)).filter
        fun p => p.writerId == w) = s.queue.filter fun p => p.writerId == w := by
      rw [List.filter_filter]
      refine List.filter_congr fun p _ => ?_
      by_cases hp : p.writerId = w <;> simp [hp, hw]
    exact ⟨base, Q, hb.congr (hkeep ▸ hqueue w) le_rfl⟩

/-- On an empty queue every writer is idle: the virtual time and starts go back to 0. -/
theorem resetVirtualTime (hinv : Fair L s) : Fair L s.resetVirtualTime := by
  unfold WfqScheduler.resetVirtualTime
  split
  · rename_i hempty
    have hnil : s.queue = [] := List.isEmpty_iff.1 hempty
    refine ⟨fun w writer' h => ?_, fun x hx => by simp [hnil] at hx,
      fun x hx => by simp [hnil] at hx, fun w writer' h => ?_⟩
    · rw [AList.lookup_mapVal, Option.map_eq_some_iff] at h
      obtain ⟨writer, hwriter, rfl⟩ := h
      exact hinv.weight_pos w writer hwriter
    · rw [AList.lookup_mapVal, Option.map_eq_some_iff] at h
      obtain ⟨writer, hwriter, rfl⟩ := h
      obtain ⟨base, Q, hb⟩ := hinv.backlog w writer hwriter
      have hQ : Q = [] := List.perm_nil.1 (by simpa [hnil] using hb.queued.symm)
      subst hQ
      exact ⟨0, [], ⟨by simp [hnil], trivial, by simp, hb.active_iff, fun h => absurd rfl h⟩⟩
  · exact hinv

/-- One call `reachAdmits` allows keeps the invariant. -/
theorem step (hmax : H.PopsMax WfqPacket.cmp) (hinv : Fair L s) {c : WfqCall K T}
    (hc : s.reachAdmits L c = true) : Fair L (s.step H c).1 := by
  cases c with
  | addWriter writerId weight =>
    simp only [reachAdmits, List.all_eq_true, bne_iff_ne, ne_eq] at hc
    exact hinv.addWriter weight hc
  | setWeight writerId weight =>
    simp only [reachAdmits, List.all_eq_true, bne_iff_ne, ne_eq] at hc
    exact hinv.setWeight weight hc
  | enqueue writerId data size =>
    cases h : s.enqueue H writerId data size with
    | error e => simpa [WfqScheduler.step, h] using hinv
    | ok s' =>
      obtain ⟨-, writer, hw, rfl⟩ := s.enqueue_eq_ok H h
      simp only [WfqScheduler.step, h]
      exact hinv.schedule H data hw (by simpa [reachAdmits] using hc)
  | dequeue =>
    cases hp : H.pop s.queue with
    | none => simpa [WfqScheduler.step, s.dequeue_of_pop_none H hp] using hinv
    | some r => exact hinv.dequeue H hmax hp
  | removeWriter writerId => exact hinv.removeWriter writerId
  | drainWriter writerId => exact hinv.drainWriter H writerId
  | resetVirtualTime => exact hinv.resetVirtualTime

theorem run (hmax : H.PopsMax WfqPacket.cmp) (hinv : Fair L s) (calls : List (WfqCall K T))
    (hadm : s.fairAdmissible H L calls = true) : Fair L (s.run H calls).final := by
  induction calls generalizing s with
  | nil => exact hinv
  | cons c calls ih =>
    simp only [fairAdmissible, Bool.and_eq_true] at hadm
    exact ih (hinv.step H hmax (reachAdmits_of_fairAdmits hadm.1)) hadm.2

/-! ### Where a backlogged writer's start tag lies -/

section Bounds

variable {w : WriterId} {writer : WfqWriter K}

theorem startTag_le (hinv : Fair L s) (hw : s.writers.lookup w = some writer)
    (hq : s.hasQueued w = true) : s.startTag w writer ≤ s.virtualTime := by
  obtain ⟨base, Q, hb⟩ := hinv.backlog w writer hw
  rw [hb.startTag_eq]
  exact hb.base_le (hb.hasQueued_iff.1 hq)

/-- The writer's first queued packet finishes no earlier than the virtual time, and costs at
most `L / weight`. -/
theorem le_startTag (hinv : Fair L s) (hw : s.writers.lookup w = some writer)
    (hq : s.hasQueued w = true) : s.virtualTime - (L : K) / writer.weight ≤ s.startTag w writer := by
  obtain ⟨base, Q, hb⟩ := hinv.backlog w writer hw
  obtain ⟨p, Q', rfl⟩ := List.exists_cons_of_ne_nil (hb.hasQueued_iff.1 hq)
  obtain ⟨htag, -⟩ := hb.chain
  have hmem := (hb.mem_queue List.mem_cons_self).1
  have hvt : s.virtualTime ≤ base + (p.size : K) / writer.weight :=
    htag ▸ hinv.le_finishTime p hmem
  have hsize : (p.size : K) / writer.weight ≤ (L : K) / writer.weight :=
    div_le_div_of_nonneg_right (Nat.cast_le.2 (hinv.size_le p hmem))
      (hinv.weight_pos w writer hw).le
  rw [hb.startTag_eq]
  linarith

end Bounds

end Fair

theorem FairlyReachable.fair {H : HeapOps (WfqPacket K T)} (hmax : H.PopsMax WfqPacket.cmp)
    {L : ℕ} {s : WfqScheduler K T} (h : FairlyReachable H L s) : Fair L s := by
  induction h with
  | init maxSize => exact Fair.withMaxQueue L maxSize
  | step _ hc ih => exact ih.step H hmax hc

theorem FairlyReachable.run {H : HeapOps (WfqPacket K T)} {L : ℕ} {s : WfqScheduler K T}
    (h : FairlyReachable H L s) (calls : List (WfqCall K T))
    (hadm : s.fairAdmissible H L calls = true) : FairlyReachable H L (s.run H calls).final := by
  induction calls generalizing s with
  | nil => exact h
  | cons c calls ih =>
    simp only [fairAdmissible, Bool.and_eq_true] at hadm
    exact ih (h.step (reachAdmits_of_fairAdmits hadm.1)) hadm.2

/-! ## The start tag of a backlogged writer along a run -/

section StartTag

variable {H : HeapOps (WfqPacket K T)} {L : ℕ} {s : WfqScheduler K T} {i : WriterId}
  {wi : WfqWriter K}

/-- A packet enqueued for an active writer moves its virtual start and its queued bytes alike. -/
theorem startTag_schedule_self (hw : s.writers.lookup i = some wi) (hactive : wi.active = true)
    (data : T) (size : ℕ) :
    ∃ wi', (s.schedule H i (wi.activate s.virtualTime) data size).writers.lookup i = some wi' ∧
      wi'.weight = wi.weight ∧
      (s.schedule H i (wi.activate s.virtualTime) data size).startTag i wi' = s.startTag i wi := by
  rw [WfqWriter.activate_of_active hactive]
  refine ⟨_, AList.lookup_replace (AList.lookup_isSome.1 (by rw [hw]; rfl)), rfl, ?_⟩
  rw [startTag, startTag, queuedBytes_of_perm (H.perm_push _ s.queue) i, if_pos rfl]
  dsimp only
  push_cast
  ring

theorem startTag_schedule_ne {writerId : WriterId} (hne : writerId ≠ i)
    (hw : s.writers.lookup i = some wi) (writer : WfqWriter K) (data : T) (size : ℕ) :
    (s.schedule H writerId writer data size).writers.lookup i = some wi ∧
      (s.schedule H writerId writer data size).startTag i wi = s.startTag i wi := by
  refine ⟨(AList.lookup_replace_ne (Ne.symm hne)).trans hw, ?_⟩
  rw [startTag, startTag, queuedBytes_of_perm (H.perm_push _ s.queue) i, if_neg hne,
    Nat.add_zero]

/-- Dequeuing a packet of the writer moves its start tag past the packet. -/
theorem startTag_dequeue_self {p : WfqPacket K T} {q : List (WfqPacket K T)}
    (hp : H.pop s.queue = some (p, q)) (hi : p.writerId = i) (hw : s.writers.lookup i = some wi) :
    ∃ wi', (s.dequeue H).1.writers.lookup i = some wi' ∧ wi'.weight = wi.weight ∧
      (s.dequeue H).1.startTag i wi' = s.startTag i wi + (p.size : K) / wi.weight := by
  obtain ⟨-, hqueue, hwriters⟩ := s.dequeue_of_pop_some H hp
  subst hi
  have hbytes : s.queuedBytes p.writerId = (s.dequeue H).1.queuedBytes p.writerId + p.size := by
    have hperm : s.queue.Perm (p :: (s.dequeue H).1.queue) := by
      rw [hqueue]
      exact H.perm_pop s.queue p q hp
    rw [queuedBytes_of_perm hperm, if_pos rfl]
  refine ⟨{ wi with active := q.any fun p' => p'.writerId == p.writerId },
    by rw [hwriters, AList.lookup_modify, hw]; rfl, rfl, ?_⟩
  rw [startTag, startTag, hbytes]
  dsimp only
  push_cast
  ring

theorem startTag_dequeue_ne {p : WfqPacket K T} {q : List (WfqPacket K T)}
    (hp : H.pop s.queue = some (p, q)) (hi : p.writerId ≠ i) (hw : s.writers.lookup i = some wi) :
    (s.dequeue H).1.writers.lookup i = some wi ∧ (s.dequeue H).1.startTag i wi = s.startTag i wi := by
  obtain ⟨-, hqueue, hwriters⟩ := s.dequeue_of_pop_some H hp
  have hperm : s.queue.Perm (p :: (s.dequeue H).1.queue) := by
    rw [hqueue]
    exact H.perm_pop s.queue p q hp
  refine ⟨by rw [hwriters, AList.lookup_modify_ne _ _ (Ne.symm hi), hw], ?_⟩
  rw [startTag, startTag, queuedBytes_of_perm hperm, if_neg hi, Nat.add_zero]

/-- One covered call while writer `i` has a packet queued: its weight stays, and its start tag
rises by the bytes the call dequeued for it over its weight. -/
theorem startTag_step (hinv : Fair L s) {c : WfqCall K T} (hc : s.fairAdmits L c = true)
    (hw : s.writers.lookup i = some wi) (hq : s.hasQueued i = true) :
    ∃ wi', (s.step H c).1.writers.lookup i = some wi' ∧ wi'.weight = wi.weight ∧
      (s.step H c).1.startTag i wi' =
        s.startTag i wi + (c.dequeuedBytes i (s.step H c).2 : K) / wi.weight := by
  cases c with
  | addWriter writerId weight =>
    -- the writer added has nothing queued, so it is not `i`
    simp only [fairAdmits, List.all_eq_true, bne_iff_ne, ne_eq] at hc
    have hne : i ≠ writerId := by
      obtain ⟨p, hp, hpi⟩ := List.any_eq_true.1 hq
      rintro rfl
      exact hc p hp (by simpa using hpi)
    refine ⟨wi, (AList.lookup_insert_ne hne).trans hw, rfl, ?_⟩
    simp [WfqScheduler.step, WfqCall.dequeuedBytes, startTag, queuedBytes, WfqScheduler.addWriter]
  | enqueue writerId data size =>
    cases h : s.enqueue H writerId data size with
    | error e =>
      refine ⟨wi, by simpa [WfqScheduler.step, h] using hw, rfl, ?_⟩
      simp [WfqScheduler.step, h, WfqCall.dequeuedBytes]
    | ok s' =>
      obtain ⟨-, writer, hwriter, rfl⟩ := s.enqueue_eq_ok H h
      simp only [WfqScheduler.step, h, WfqCall.dequeuedBytes, Nat.cast_zero, zero_div, add_zero]
      by_cases hwi : writerId = i
      · -- a writer with a packet queued is active, so it keeps its chain going
        subst hwi
        rw [hw, Option.some.injEq] at hwriter
        subst hwriter
        obtain ⟨base, Q, hb⟩ := hinv.backlog _ _ hw
        exact startTag_schedule_self hw (hb.active_iff.2 (hb.hasQueued_iff.1 hq)) data size
      · obtain ⟨hlookup, htag⟩ := startTag_schedule_ne hwi hw (writer.activate s.virtualTime) data size
        exact ⟨wi, hlookup, rfl, htag⟩
  | dequeue =>
    cases hp : H.pop s.queue with
    | none =>
      refine ⟨wi, by simpa [WfqScheduler.step, s.dequeue_of_pop_none H hp] using hw, rfl, ?_⟩
      simp [WfqScheduler.step, s.dequeue_of_pop_none H hp, WfqCall.dequeuedBytes]
    | some r =>
      obtain ⟨p, q⟩ := r
      simp only [WfqScheduler.step, (s.dequeue_of_pop_some H hp).1, WfqCall.dequeuedBytes]
      by_cases hi : p.writerId = i
      · rw [if_pos hi]
        exact startTag_dequeue_self hp hi hw
      · rw [if_neg hi, Nat.cast_zero, zero_div, add_zero]
        obtain ⟨hlookup, htag⟩ := startTag_dequeue_ne hp hi hw
        exact ⟨wi, hlookup, rfl, htag⟩
  | removeWriter | setWeight | drainWriter | resetVirtualTime => simp [fairAdmits] at hc

/-- Along a covered run during which writer `i` keeps a packet queued, its start tag rises by the
bytes dequeued for it over its weight, which stays as it was. -/
theorem startTag_run (hmax : H.PopsMax WfqPacket.cmp) (hinv : Fair L s) {calls : List (WfqCall K T)}
    (hadm : s.fairAdmissible H L calls = true) (hw : s.writers.lookup i = some wi)
    (hb : s.backloggedAlong H i calls = true) :
    ∃ wi', (s.run H calls).final.writers.lookup i = some wi' ∧ wi'.weight = wi.weight ∧
      (s.run H calls).final.startTag i wi' =
        s.startTag i wi + (s.bytesDequeued H i calls : K) / wi.weight ∧
      (s.run H calls).final.hasQueued i = true := by
  induction calls generalizing s wi with
  | nil => exact ⟨wi, hw, rfl, by simp [bytesDequeued, WfqScheduler.run], hb⟩
  | cons c calls ih =>
    simp only [fairAdmissible, Bool.and_eq_true] at hadm
    simp only [backloggedAlong, Bool.and_eq_true] at hb
    obtain ⟨wi₁, hw₁, hweight₁, htag₁⟩ := startTag_step hinv hadm.1 hw hb.1
    obtain ⟨wi', hw', hweight', htag', hq'⟩ :=
      ih (hinv.step H hmax (reachAdmits_of_fairAdmits hadm.1)) hadm.2 hw₁ hb.2
    refine ⟨wi', hw', hweight'.trans hweight₁, ?_, hq'⟩
    rw [show (s.run H (c :: calls)).final = ((s.step H c).1.run H calls).final from rfl, htag',
      htag₁, hweight₁, bytesDequeued, Nat.cast_add, add_div, add_assoc]

end StartTag

end WfqScheduler

/-- Self-clocked fair queueing, with exact arithmetic: from a scheduler reached by any calls but
`add_writer` and `set_weight` of a writer with a packet queued, and `enqueue` of at most `L`
bytes, over a run of `add_writer` of idle writers, `enqueue` of at most `L` bytes and `dequeue`
during which writers `i` and `j` both keep a packet queued, the bytes dequeued for them over
their weights differ by at most `L / w_i + L / w_j`. -/
theorem wfq_fairness_bound (H : HeapOps (WfqPacket K T)) (hmax : H.PopsMax WfqPacket.cmp) (L : ℕ)
    {s : WfqScheduler K T} (hs : WfqScheduler.FairlyReachable H L s) (calls : List (WfqCall K T))
    (hadm : s.fairAdmissible H L calls = true) {i j : WriterId} {wi wj : WfqWriter K}
    (hwi : s.writers.lookup i = some wi) (hwj : s.writers.lookup j = some wj)
    (hi : s.backloggedAlong H i calls = true) (hj : s.backloggedAlong H j calls = true) :
    |(s.bytesDequeued H i calls : K) / wi.weight - (s.bytesDequeued H j calls : K) / wj.weight| ≤
      (L : K) / wi.weight + (L : K) / wj.weight := by
  have hinv := hs.fair hmax
  have hfinal := hinv.run H hmax calls hadm
  obtain ⟨wi', hwi', hweighti, htagi, hqi⟩ := WfqScheduler.startTag_run hmax hinv hadm hwi hi
  obtain ⟨wj', hwj', hweightj, htagj, hqj⟩ := WfqScheduler.startTag_run hmax hinv hadm hwj hj
  -- both start tags lie within `L / weight` below the virtual time, before and after the run
  have hi₀ := hinv.startTag_le hwi (WfqScheduler.hasQueued_of_backloggedAlong hi)
  have hi₀' := hinv.le_startTag hwi (WfqScheduler.hasQueued_of_backloggedAlong hi)
  have hj₀ := hinv.startTag_le hwj (WfqScheduler.hasQueued_of_backloggedAlong hj)
  have hj₀' := hinv.le_startTag hwj (WfqScheduler.hasQueued_of_backloggedAlong hj)
  have hi₁ := hfinal.startTag_le hwi' hqi
  have hi₁' := hfinal.le_startTag hwi' hqi
  have hj₁ := hfinal.startTag_le hwj' hqj
  have hj₁' := hfinal.le_startTag hwj' hqj
  rw [hweighti] at hi₁'
  rw [hweightj] at hj₁'
  rw [abs_sub_le_iff]
  constructor <;> linarith

/-- Writers of weights 2 and 1 with three and two packets of 100 bytes queued. -/
def fairStart : WfqScheduler ℚ ℕ :=
  ((WfqScheduler.withMaxQueue 10000).run (HeapOps.selection WfqPacket.cmp)
    [.addWriter 1 2, .addWriter 2 1, .enqueue 1 10 100, .enqueue 1 11 100, .enqueue 1 12 100,
      .enqueue 2 20 100, .enqueue 2 21 100]).final

/-- Two dequeues from `fairStart`, with rational tags and a heap that pops by selection: both
writers keep a packet queued throughout. -/
theorem wfq_fairness_bound_two_writers :
    WfqScheduler.FairlyReachable (HeapOps.selection WfqPacket.cmp) 100 fairStart ∧
      fairStart.fairAdmissible (HeapOps.selection WfqPacket.cmp) 100 [.dequeue, .dequeue] = true ∧
      fairStart.writers.lookup 1 = some ⟨2, 150, 300, 3, true⟩ ∧
      fairStart.writers.lookup 2 = some ⟨1, 200, 200, 2, true⟩ ∧
      fairStart.backloggedAlong (HeapOps.selection WfqPacket.cmp) 1 [.dequeue, .dequeue] = true ∧
      fairStart.backloggedAlong (HeapOps.selection WfqPacket.cmp) 2 [.dequeue, .dequeue] = true ∧
      |(fairStart.bytesDequeued (HeapOps.selection WfqPacket.cmp) 1 [.dequeue, .dequeue] : ℚ) / 2 -
          (fairStart.bytesDequeued (HeapOps.selection WfqPacket.cmp) 2 [.dequeue, .dequeue] : ℚ) /
            1| ≤
        ((100 : ℕ) : ℚ) / 2 + ((100 : ℕ) : ℚ) / 1 := by
  have hs : WfqScheduler.FairlyReachable (HeapOps.selection WfqPacket.cmp) 100 fairStart :=
    (WfqScheduler.FairlyReachable.init 10000).run _ (by decide +kernel)
  have hadm :
      fairStart.fairAdmissible (HeapOps.selection WfqPacket.cmp) 100 [.dequeue, .dequeue] = true := by
    decide +kernel
  have h1 : fairStart.writers.lookup 1 = some ⟨2, 150, 300, 3, true⟩ := by decide +kernel
  have h2 : fairStart.writers.lookup 2 = some ⟨1, 200, 200, 2, true⟩ := by decide +kernel
  have hb1 :
      fairStart.backloggedAlong (HeapOps.selection WfqPacket.cmp) 1 [.dequeue, .dequeue] = true := by
    decide +kernel
  have hb2 :
      fairStart.backloggedAlong (HeapOps.selection WfqPacket.cmp) 2 [.dequeue, .dequeue] = true := by
    decide +kernel
  have hbound := wfq_fairness_bound _ (HeapOps.popsMax_selection _) 100 hs _ hadm h1 h2 hb1 hb2
  exact ⟨hs, hadm, h1, h2, hb1, hb2, hbound⟩

/-- Writers 1 and 2 of weight 1 with six 1-byte packets each, and writer 1 added again after its
first six, so that its next six restart from virtual time 0. -/
def readdedStart : WfqScheduler ℚ ℕ :=
  ((WfqScheduler.withMaxQueue 10000).run (HeapOps.selection WfqPacket.cmp)
    ([.addWriter 1 1, .addWriter 2 1] ++ List.replicate 6 (.enqueue 1 0 1) ++ [.addWriter 1 1] ++
      List.replicate 6 (.enqueue 1 0 1) ++ List.replicate 6 (.enqueue 2 0 1))).final

/-- Writers 1 and 2 of weight 1 with six 1-byte packets each, after which writer 1's weight is
set to 10. -/
def reweightedStart : WfqScheduler ℚ ℕ :=
  ((WfqScheduler.withMaxQueue 10000).run (HeapOps.selection WfqPacket.cmp)
    ([.addWriter 1 1, .addWriter 2 1] ++ List.replicate 6 (.enqueue 1 0 1) ++
      List.replicate 6 (.enqueue 2 0 1) ++ [.setWeight 1 10])).final

/-- With packets of at most 1 byte, over dequeues during which both writers keep a packet queued:
re-adding writer 1 while it has packets queued gives it 6 bytes of 9 against writer 2's 3, and
setting its weight to 10 while it has packets queued gives both 4 bytes of 8; either way
`|S_1 / w_1 - S_2 / w_2|` exceeds `L / w_1 + L / w_2`. -/
theorem fairness_bound_fails_after_readd_or_reweight :
    ((∀ p ∈ readdedStart.queue, p.size ≤ 1) ∧
      readdedStart.writers.lookup 1 = some ⟨1, 6, 6, 6, true⟩ ∧
      readdedStart.writers.lookup 2 = some ⟨1, 6, 6, 6, true⟩ ∧
      readdedStart.backloggedAlong (HeapOps.selection WfqPacket.cmp) 1
        (List.replicate 9 .dequeue) = true ∧
      readdedStart.backloggedAlong (HeapOps.selection WfqPacket.cmp) 2
        (List.replicate 9 .dequeue) = true ∧
      readdedStart.bytesDequeued (HeapOps.selection WfqPacket.cmp) 1 (List.replicate 9 .dequeue) = 6 ∧
      readdedStart.bytesDequeued (HeapOps.selection WfqPacket.cmp) 2 (List.replicate 9 .dequeue) = 3 ∧
      ¬ |((6 : ℕ) : ℚ) / 1 - ((3 : ℕ) : ℚ) / 1| ≤ ((1 : ℕ) : ℚ) / 1 + ((1 : ℕ) : ℚ) / 1) ∧
    ((∀ p ∈ reweightedStart.queue, p.size ≤ 1) ∧
      reweightedStart.writers.lookup 1 = some ⟨10, 6, 6, 6, true⟩ ∧
      reweightedStart.writers.lookup 2 = some ⟨1, 6, 6, 6, true⟩ ∧
      reweightedStart.backloggedAlong (HeapOps.selection WfqPacket.cmp) 1
        (List.replicate 8 .dequeue) = true ∧
      reweightedStart.backloggedAlong (HeapOps.selection WfqPacket.cmp) 2
        (List.replicate 8 .dequeue) = true ∧
      reweightedStart.bytesDequeued (HeapOps.selection WfqPacket.cmp) 1
        (List.replicate 8 .dequeue) = 4 ∧
      reweightedStart.bytesDequeued (HeapOps.selection WfqPacket.cmp) 2
        (List.replicate 8 .dequeue) = 4 ∧
      ¬ |((4 : ℕ) : ℚ) / 10 - ((4 : ℕ) : ℚ) / 1| ≤ ((1 : ℕ) : ℚ) / 10 + ((1 : ℕ) : ℚ) / 1) := by
  decide +kernel

end Hdds.Congestion
