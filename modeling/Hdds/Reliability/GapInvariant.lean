import Hdds.Reliability.Reader
import Mathlib.Data.List.Sort
import Mathlib.Data.Finset.Card

/-! # The gap list of a `GapTracker` over whole runs

A run applies `on_receive`, `mark_filled` and `mark_lost` in any order. Over a run in which
`last_seen` never moves back, the gap list stays separated (each range non-empty and ending before
the next starts) and below `last_seen`, so `total_missing` counts the missing sequences exactly and
a sequence the tracker has settled is never reported missing again. A `mark_lost` whose range ends
at or below `last_seen` lowers it, which its documentation allows; the next forward jump then
opens a gap that overlaps the list.
-/

namespace Hdds.Reliability
namespace GapTracker
set_option autoImplicit false

/-! ## Covered sequences and the invariant -/

/-- The sequence numbers a gap list reports missing. -/
def coveredSeqs (gaps : List (ℕ × ℕ)) : List ℕ := gaps.flatMap rangeSeqs

@[simp] theorem mem_coveredSeqs {s : ℕ} {gaps : List (ℕ × ℕ)} :
    s ∈ coveredSeqs gaps ↔ ∃ g ∈ gaps, g.1 ≤ s ∧ s < g.2 := by
  simp [coveredSeqs]

/-- Each gap ends before the next one starts; with non-empty gaps this is "sorted by start,
pairwise disjoint and never adjacent". -/
def Separated (gaps : List (ℕ × ℕ)) : Prop := gaps.Pairwise (fun a b => a.2 < b.1)

/-- The representation invariant of a tracker. -/
structure WellFormed (t : GapTracker) : Prop where
  separated : Separated t.gaps
  bounds : ∀ g ∈ t.gaps, 0 < g.1 ∧ g.1 < g.2 ∧ g.2 ≤ t.lastSeen

theorem wellFormed_new : new.WellFormed := ⟨List.Pairwise.nil, by simp [new]⟩

/-- A sequence is settled when the tracker has passed it and does not report it missing. -/
def Settled (t : GapTracker) (s : ℕ) : Prop := s ≤ t.lastSeen ∧ s ∉ coveredSeqs t.gaps

/-- One step moves `last_seen` forward and reports missing only what was missing before or lies
beyond the old `last_seen`; settled sequences then stay settled. -/
structure Advances (t t' : GapTracker) : Prop where
  lastSeen_le : t.lastSeen ≤ t'.lastSeen
  covered : ∀ s ∈ coveredSeqs t'.gaps, s ∈ coveredSeqs t.gaps ∨ t.lastSeen < s

theorem Advances.settled {t t' : GapTracker} (h : Advances t t') {s : ℕ} (hs : Settled t s) :
    Settled t' s := by
  refine ⟨le_trans hs.1 h.lastSeen_le, fun hcov => ?_⟩
  rcases h.covered s hcov with hold | hbeyond
  · exact hs.2 hold
  · exact absurd hs.1 (by omega)

theorem Advances.trans {t t' t'' : GapTracker} (h : Advances t t') (h' : Advances t' t'') :
    Advances t t'' := by
  refine ⟨le_trans h.lastSeen_le h'.lastSeen_le, fun s hs => ?_⟩
  rcases h'.covered s hs with hmid | hbeyond
  · exact h.covered s hmid
  · exact .inr (lt_of_le_of_lt h.lastSeen_le hbeyond)

/-- A step that keeps `last_seen` and only removes missing sequences advances. -/
theorem advances_of_subset {t t' : GapTracker} (hls : t'.lastSeen = t.lastSeen)
    (hsub : ∀ s ∈ coveredSeqs t'.gaps, s ∈ coveredSeqs t.gaps) : Advances t t' :=
  ⟨hls.ge, fun s hs => .inl (hsub s hs)⟩

/-- `total_missing` of a well-formed tracker counts the distinct missing sequences. -/
theorem totalMissing_eq_card {t : GapTracker} (h : t.WellFormed) :
    t.totalMissing = (coveredSeqs t.gaps).toFinset.card := by
  have hdisjoint : t.gaps.Pairwise (fun a b => (rangeSeqs a).Disjoint (rangeSeqs b)) :=
    h.separated.imp fun hab s hsa hsb => by
      rw [mem_rangeSeqs] at hsa hsb
      omega
  have hnodup : (coveredSeqs t.gaps).Nodup :=
    List.nodup_flatMap.mpr ⟨fun g _ => List.nodup_range', hdisjoint⟩
  rw [List.toFinset_card_of_nodup hnodup, coveredSeqs, List.length_flatMap, totalMissing]
  simp [rangeSeqs]

/-! ## `mark_filled` -/

section MarkFilled
variable {filled gap x : ℕ × ℕ}

/-- A piece `mark_filled` keeps of `gap` lies inside it, outside `filled`, and is non-empty if
`gap` is. -/
theorem mem_splitGap (h : x ∈ splitGap filled gap) :
    gap.1 ≤ x.1 ∧ x.2 ≤ gap.2 ∧ (x.2 ≤ filled.1 ∨ filled.2 ≤ x.1) ∧ (gap.1 < gap.2 → x.1 < x.2) := by
  unfold splitGap at h
  split at h
  · obtain rfl := List.mem_singleton.mp h
    omega
  · simp only [List.mem_append] at h
    rcases h with h | h <;> split at h <;> simp only [List.mem_singleton, List.not_mem_nil] at h
    all_goals first | contradiction | (subst h; dsimp only; omega)

/-- The pieces of `gap` cover exactly its sequences outside `filled`. -/
theorem mem_coveredSeqs_splitGap (hf : filled.1 < filled.2) {s : ℕ} :
    s ∈ coveredSeqs (splitGap filled gap) ↔
      (gap.1 ≤ s ∧ s < gap.2) ∧ ¬(filled.1 ≤ s ∧ s < filled.2) := by
  unfold splitGap
  split_ifs <;> simp <;> omega

theorem separated_splitGap (hf : filled.1 < filled.2) : Separated (splitGap filled gap) := by
  unfold splitGap Separated
  split_ifs <;> simp [hf]

theorem mem_coveredSeqs_markFilled {t : GapTracker} (hf : filled.1 < filled.2) {s : ℕ} :
    s ∈ coveredSeqs (t.markFilled filled).gaps ↔
      s ∈ coveredSeqs t.gaps ∧ ¬(filled.1 ≤ s ∧ s < filled.2) := by
  have hsplit : ∀ g : ℕ × ℕ, s ∈ (splitGap filled g).flatMap rangeSeqs ↔
      (g.1 ≤ s ∧ s < g.2) ∧ ¬(filled.1 ≤ s ∧ s < filled.2) := fun _ => mem_coveredSeqs_splitGap hf
  simp only [markFilled, coveredSeqs, List.flatMap_assoc]
  rw [List.mem_flatMap, List.mem_flatMap]
  simp only [hsplit, mem_rangeSeqs]
  constructor
  · rintro ⟨g, hg, hs, hnot⟩
    exact ⟨⟨g, hg, hs⟩, hnot⟩
  · rintro ⟨⟨g, hg, hs⟩, hnot⟩
    exact ⟨g, hg, hs, hnot⟩

theorem WellFormed.markFilled {t : GapTracker} (h : t.WellFormed) (hf : filled.1 < filled.2) :
    (t.markFilled filled).WellFormed := by
  constructor
  · -- the pieces of one gap are separated, and pieces of separated gaps inherit the order
    refine List.pairwise_flatMap.mpr ⟨fun g _ => separated_splitGap hf, ?_⟩
    refine h.separated.imp fun hab x hx y hy => ?_
    have := mem_splitGap hx
    have := mem_splitGap hy
    omega
  · intro x hx
    obtain ⟨g, hg, hxg⟩ := List.mem_flatMap.mp hx
    have hgb := h.bounds g hg
    have := mem_splitGap hxg
    dsimp only [GapTracker.markFilled]
    omega

theorem advances_markFilled {t : GapTracker} (hf : filled.1 < filled.2) :
    Advances t (t.markFilled filled) :=
  advances_of_subset rfl fun _ hs => ((mem_coveredSeqs_markFilled hf).mp hs).1

theorem settled_markFilled {t : GapTracker} (hf : filled.1 < filled.2) {s : ℕ}
    (hs : s ∈ rangeSeqs filled) (hpassed : s ≤ t.lastSeen) : Settled (t.markFilled filled) s :=
  ⟨hpassed, fun hcov => ((mem_coveredSeqs_markFilled hf).mp hcov).2 (mem_rangeSeqs.mp hs)⟩

end MarkFilled

/-! ## `merge_and_compact` on a separated list

A separated list is already sorted, so the sort does nothing, and no two of its ranges are adjacent,
so the merge does nothing: only the capacity drop acts. -/

@[simp] theorem lastSeen_mergeAndCompact (t : GapTracker) :
    (mergeAndCompact t).lastSeen = t.lastSeen := by
  unfold mergeAndCompact
  split <;> rfl

theorem mergeAdjacent_of_separated {current : ℕ × ℕ} {rest : List (ℕ × ℕ)}
    (h : Separated (current :: rest)) : mergeAdjacent current rest = current :: rest := by
  induction rest generalizing current with
  | nil => rfl
  | cons gap rest ih =>
    have hlt : current.2 < gap.1 := List.rel_of_pairwise_cons h List.mem_cons_self
    rw [mergeAdjacent, if_neg (by omega), ih h.of_cons]

theorem mergeAndCompact_of_wellFormed {t : GapTracker} (h : t.WellFormed) :
    mergeAndCompact t = { t with gaps := t.gaps.drop (t.gaps.length - maxGapRanges) } := by
  have hsorted : t.gaps.Pairwise (fun a b => a.1 ≤ b.1) :=
    h.separated.imp_of_mem fun ha _ hab => by
      have := h.bounds _ ha
      omega
  obtain ⟨lastSeen, gaps⟩ := t
  unfold mergeAndCompact
  dsimp only at hsorted h ⊢
  rw [hsorted.insertionSort_eq]
  cases gaps with
  | nil => rfl
  | cons first rest =>
    dsimp only
    rw [mergeAdjacent_of_separated h.separated]

theorem WellFormed.mergeAndCompact {t : GapTracker} (h : t.WellFormed) :
    (mergeAndCompact t).WellFormed := by
  rw [mergeAndCompact_of_wellFormed h]
  exact ⟨h.separated.sublist (List.drop_sublist _ _),
    fun g hg => h.bounds g (List.mem_of_mem_drop hg)⟩

theorem advances_mergeAndCompact {t : GapTracker} (h : t.WellFormed) :
    Advances t (mergeAndCompact t) := by
  rw [mergeAndCompact_of_wellFormed h]
  refine advances_of_subset rfl fun s hs => ?_
  obtain ⟨g, hg, hsg⟩ := mem_coveredSeqs.mp hs
  exact mem_coveredSeqs.mpr ⟨g, List.mem_of_mem_drop hg, hsg⟩

/-! ## `on_receive` -/

/-- The tracker a forward jump builds before `merge_and_compact`. -/
theorem WellFormed.push {t : GapTracker} (h : t.WellFormed) {seq : ℕ} (hjump : t.lastSeen + 1 < seq) :
    WellFormed ⟨seq, t.gaps ++ [(t.lastSeen + 1, seq)]⟩ := by
  constructor
  · refine List.pairwise_append.mpr ⟨h.separated, List.pairwise_singleton _ _, ?_⟩
    intro g hg y hy
    obtain rfl := List.mem_singleton.mp hy
    have := h.bounds g hg
    dsimp only
    omega
  · intro g hg
    rcases List.mem_append.mp hg with hg | hg
    · have := h.bounds g hg
      dsimp only
      omega
    · obtain rfl := List.mem_singleton.mp hg
      dsimp only
      omega

theorem advances_push {t : GapTracker} {seq : ℕ} (hjump : t.lastSeen + 1 < seq) :
    Advances t ⟨seq, t.gaps ++ [(t.lastSeen + 1, seq)]⟩ := by
  refine ⟨by dsimp only; omega, fun s hs => ?_⟩
  obtain ⟨g, hg, hsg⟩ := mem_coveredSeqs.mp hs
  rcases List.mem_append.mp hg with hg | hg
  · exact .inl (mem_coveredSeqs.mpr ⟨g, hg, hsg⟩)
  · obtain rfl := List.mem_singleton.mp hg
    exact .inr (by dsimp only at hsg; omega)

theorem WellFormed.onReceive {t : GapTracker} (h : t.WellFormed) (seq : ℕ) :
    (t.onReceive seq).WellFormed := by
  unfold GapTracker.onReceive
  split_ifs with hzero hnext hjump
  · exact h
  · exact ⟨h.separated, fun g hg => by have := h.bounds g hg; dsimp only; omega⟩
  · exact (h.push hjump).mergeAndCompact
  · exact h.markFilled (by dsimp only; omega)

theorem advances_onReceive {t : GapTracker} (h : t.WellFormed) (seq : ℕ) :
    Advances t (t.onReceive seq) := by
  unfold GapTracker.onReceive
  split_ifs with hzero hnext hjump
  · exact advances_of_subset rfl fun _ hs => hs
  · exact ⟨by dsimp only; omega, fun s hs => .inl hs⟩
  · exact (advances_push hjump).trans (advances_mergeAndCompact (h.push hjump))
  · exact advances_markFilled (by dsimp only; omega)

/-- `on_receive seq` settles `seq`, in each of its four branches. -/
theorem settled_onReceive {t : GapTracker} (h : t.WellFormed) (seq : ℕ) :
    Settled (t.onReceive seq) seq := by
  unfold GapTracker.onReceive
  split_ifs with hzero hnext hjump
  · -- sequence 0 is ignored, and no gap starts at 0
    refine ⟨by omega, fun hcov => ?_⟩
    obtain ⟨g, hg, hsg⟩ := mem_coveredSeqs.mp hcov
    have := h.bounds g hg
    omega
  · -- contiguous: every gap ends at or before the old `last_seen`
    refine ⟨le_refl _, fun hcov => ?_⟩
    obtain ⟨g, hg, hsg⟩ := mem_coveredSeqs.mp hcov
    have := h.bounds g hg
    omega
  · -- forward jump: the new gap ends at `seq`, exclusive
    refine ⟨by simp, fun hcov => ?_⟩
    rcases (advances_mergeAndCompact (h.push hjump)).covered seq hcov with hcov | hbeyond
    · obtain ⟨g, hg, hsg⟩ := mem_coveredSeqs.mp hcov
      rcases List.mem_append.mp hg with hg | hg
      · have := h.bounds g hg
        omega
      · obtain rfl := List.mem_singleton.mp hg
        dsimp only at hsg
        omega
    · dsimp only at hbeyond
      omega
  · -- out of order: `mark_filled (seq, seq + 1)`
    exact ⟨by dsimp only [GapTracker.markFilled]; omega, fun hcov =>
      ((mem_coveredSeqs_markFilled (by dsimp only; omega)).mp hcov).2 (by dsimp only; omega)⟩

/-! ## `mark_lost` -/

/-- `mark_lost` of a non-empty range: the range is filled and `last_seen` becomes its last
sequence, before `merge_and_compact`. -/
theorem markLost_eq {t : GapTracker} {lost : ℕ × ℕ} (hlost : lost.1 < lost.2) :
    t.markLost lost = mergeAndCompact { t.markFilled lost with lastSeen := lost.2 - 1 } := by
  unfold markLost
  rw [if_neg (by omega)]
  dsimp only
  rw [if_pos (by omega)]

section MarkLost
variable {t : GapTracker} {lost : ℕ × ℕ}

/-- The tracker `mark_lost` hands to `merge_and_compact`, when it does not lower `last_seen`. -/
theorem WellFormed.raised (h : t.WellFormed) (hlost : lost.1 < lost.2)
    (hkeep : t.lastSeen < lost.2) : WellFormed { t.markFilled lost with lastSeen := lost.2 - 1 } := by
  have hfilled := h.markFilled hlost
  refine ⟨hfilled.separated, fun g hg => ?_⟩
  have := hfilled.bounds g hg
  dsimp only [GapTracker.markFilled] at this ⊢
  omega

theorem WellFormed.markLost (h : t.WellFormed) (hlost : lost.1 < lost.2)
    (hkeep : t.lastSeen < lost.2) : (t.markLost lost).WellFormed := by
  rw [markLost_eq hlost]
  exact (h.raised hlost hkeep).mergeAndCompact

theorem advances_markLost (h : t.WellFormed) (hlost : lost.1 < lost.2)
    (hkeep : t.lastSeen < lost.2) : Advances t (t.markLost lost) := by
  rw [markLost_eq hlost]
  refine Advances.trans ?_ (advances_mergeAndCompact (h.raised hlost hkeep))
  exact ⟨by dsimp only; omega, fun s hs => .inl ((mem_coveredSeqs_markFilled hlost).mp hs).1⟩

/-- `mark_lost lost` settles every sequence of `lost`. -/
theorem settled_markLost (h : t.WellFormed) (hlost : lost.1 < lost.2)
    (hkeep : t.lastSeen < lost.2) {s : ℕ} (hs : s ∈ rangeSeqs lost) :
    Settled (t.markLost lost) s := by
  rw [mem_rangeSeqs] at hs
  rw [markLost_eq hlost]
  refine ⟨by simp; omega, fun hcov => ?_⟩
  -- `merge_and_compact` only drops gaps of the filled tracker
  rcases (advances_mergeAndCompact (h.raised hlost hkeep)).covered s hcov with hcov | hbeyond
  · exact ((mem_coveredSeqs_markFilled hlost).mp hcov).2 hs
  · dsimp only at hbeyond
    omega

end MarkLost

/-! ## Runs -/

/-- The operations a reader applies to its `GapTracker`. `mark_filled` and `mark_lost` take an
`RtpsRange`, whose constructors assert `start < end`. -/
inductive GapOp
  | receive (seq : ℕ)
  | filled (range : ℕ × ℕ) (nonempty : range.1 < range.2)
  | lost (range : ℕ × ℕ) (nonempty : range.1 < range.2)

/-- Apply one operation. -/
def GapOp.apply (t : GapTracker) : GapOp → GapTracker
  | .receive seq => t.onReceive seq
  | .filled range _ => t.markFilled range
  | .lost range _ => t.markLost range

/-- The tracker after a run of operations. -/
def runOps (t : GapTracker) (ops : List GapOp) : GapTracker := ops.foldl GapOp.apply t

/-- The sequence numbers an operation settles: the received one, the lost range, and the part of
a filled range that the tracker has already passed. -/
def GapOp.settles (t : GapTracker) : GapOp → List ℕ
  | .receive seq => [seq]
  | .filled range _ => (rangeSeqs range).filter (fun s => s ≤ t.lastSeen)
  | .lost range _ => rangeSeqs range

/-- The sequence numbers settled along a run. -/
def settledSeqs : GapTracker → List GapOp → List ℕ
  | _, [] => []
  | t, op :: ops => op.settles t ++ settledSeqs (op.apply t) ops

/-- `last_seen` never moves back along the run. -/
def LastSeenMonotone : GapTracker → List GapOp → Prop
  | _, [] => True
  | t, op :: ops => t.lastSeen ≤ (op.apply t).lastSeen ∧ LastSeenMonotone (op.apply t) ops

instance decLastSeenMonotone : ∀ t ops, Decidable (LastSeenMonotone t ops)
  | _, [] => isTrue trivial
  | t, op :: ops =>
    haveI := decLastSeenMonotone (op.apply t) ops
    inferInstanceAs (Decidable (_ ∧ _))

section Run
variable {t : GapTracker}

theorem Advances.refl (t : GapTracker) : Advances t t := advances_of_subset rfl fun _ hs => hs

/-- Only `mark_lost` moves `last_seen` back, and it does so exactly when its range ends at or
below `last_seen`. -/
theorem lastSeen_lt_of_markLost {lost : ℕ × ℕ} (hlost : lost.1 < lost.2)
    (hmono : t.lastSeen ≤ (t.markLost lost).lastSeen) : t.lastSeen < lost.2 := by
  rw [markLost_eq hlost, lastSeen_mergeAndCompact] at hmono
  dsimp only at hmono
  omega

/-- The step lemma: an operation that does not move `last_seen` back keeps the invariant,
advances, and settles what it names. -/
theorem GapOp.step (h : t.WellFormed) (op : GapOp) (hmono : t.lastSeen ≤ (op.apply t).lastSeen) :
    (op.apply t).WellFormed ∧ Advances t (op.apply t) ∧
      ∀ s ∈ op.settles t, Settled (op.apply t) s := by
  cases op with
  | receive seq =>
    refine ⟨h.onReceive seq, advances_onReceive h seq, fun s hs => ?_⟩
    obtain rfl := List.mem_singleton.mp hs
    exact settled_onReceive h s
  | filled range hrange =>
    refine ⟨h.markFilled hrange, advances_markFilled hrange, fun s hs => ?_⟩
    obtain ⟨hs, hpassed⟩ := List.mem_filter.mp hs
    exact settled_markFilled hrange hs (of_decide_eq_true hpassed)
  | lost range hrange =>
    have hkeep := lastSeen_lt_of_markLost hrange hmono
    exact ⟨h.markLost hrange hkeep, advances_markLost h hrange hkeep,
      fun s hs => settled_markLost h hrange hkeep hs⟩

/-- The run lemma, by induction on the operations. -/
theorem runOps_settled (ops : List GapOp) (h : t.WellFormed) (hmono : LastSeenMonotone t ops) :
    (runOps t ops).WellFormed ∧ Advances t (runOps t ops) ∧
      ∀ s ∈ settledSeqs t ops, Settled (runOps t ops) s := by
  induction ops generalizing t with
  | nil => exact ⟨h, Advances.refl t, by simp [settledSeqs]⟩
  | cons op ops ih =>
    obtain ⟨hwf, hadv, hset⟩ := GapOp.step h op hmono.1
    obtain ⟨hwf', hadv', hset'⟩ := ih hwf hmono.2
    refine ⟨hwf', hadv.trans hadv', fun s hs => ?_⟩
    rcases List.mem_append.mp hs with hs | hs
    · exact hadv'.settled (hset s hs)
    · exact hset' s hs

end Run

/-- Over every run from `GapTracker::new()` in which `last_seen` never moves back, each pending gap
ends before the next one starts (so the list is sorted by start and pairwise disjoint), every gap
is non-empty, `total_missing` is the number of distinct missing sequences, and no settled sequence
is reported missing. -/
theorem gaps_exact_while_lastSeen_monotone (ops : List GapOp) (hmono : LastSeenMonotone new ops) :
    (runOps new ops).gaps.Pairwise (fun a b => a.2 < b.1) ∧
      (∀ g ∈ (runOps new ops).gaps, g.1 < g.2) ∧
      (runOps new ops).totalMissing = (coveredSeqs (runOps new ops).gaps).toFinset.card ∧
      ∀ s ∈ settledSeqs new ops, s ∉ coveredSeqs (runOps new ops).gaps := by
  obtain ⟨hwf, -, hset⟩ := runOps_settled ops wellFormed_new hmono
  exact ⟨hwf.separated, fun g hg => (hwf.bounds g hg).2.1, totalMissing_eq_card hwf,
    fun s hs => (hset s hs).2⟩

theorem gaps_exact_while_lastSeen_monotone_mixed :
    let ops := [GapOp.receive 1, .receive 5, .filled (3, 4) (by decide), .lost (2, 6) (by decide),
      .receive 9, .receive 7]
    LastSeenMonotone new ops ∧
      ((runOps new ops).gaps.Pairwise (fun a b => a.2 < b.1) ∧
        (∀ g ∈ (runOps new ops).gaps, g.1 < g.2) ∧
        (runOps new ops).totalMissing = (coveredSeqs (runOps new ops).gaps).toFinset.card ∧
        ∀ s ∈ settledSeqs new ops, s ∉ coveredSeqs (runOps new ops).gaps) := by
  intro ops
  have hmono : LastSeenMonotone new ops := by decide
  exact ⟨hmono, gaps_exact_while_lastSeen_monotone ops hmono⟩

/-! ## `mark_lost` below `last_seen` -/

/-- Receiving 1 and `m`, losing 2 and receiving `k` between them: `mark_lost (2, 3)` lowers
`last_seen` to 2 under the pending `(3, m)`, and receiving `k` pushes `(3, k)` beside it, which
`merge_and_compact` keeps apart. -/
theorem gaps_after_lost_downgrade (m k : ℕ) (hk : 3 < k) (hkm : k < m) :
    (runOps new [.receive 1, .receive m, .lost (2, 3) (by decide), .receive k]).gaps =
      [(3, m), (3, k)] := by
  have hjump : onReceive ⟨1, []⟩ m = ⟨m, [(2, m)]⟩ := by
    unfold onReceive
    dsimp only
    rw [if_neg (by omega), if_neg (by omega), if_pos (by omega)]
    rfl
  have hlost : markLost ⟨m, [(2, m)]⟩ (2, 3) = ⟨2, [(3, m)]⟩ := by
    have hsplit : splitGap (2, 3) (2, m) = [(3, m)] := by
      unfold splitGap
      dsimp only
      rw [if_neg (by omega), if_neg (by omega), if_pos (by omega)]
      rfl
    unfold markLost markFilled
    dsimp only
    rw [if_neg (by omega), if_pos (by omega)]
    simp only [List.flatMap_cons, List.flatMap_nil, hsplit, List.append_nil]
    rfl
  have hback : onReceive ⟨2, [(3, m)]⟩ k = ⟨k, [(3, m), (3, k)]⟩ := by
    -- the two ranges start together, so the stable sort keeps them and nothing merges
    have hsort : [(3, m), (3, k)].insertionSort (fun a b => a.1 ≤ b.1) = [(3, m), (3, k)] :=
      List.Pairwise.insertionSort_eq (by simp)
    have hmerge : mergeAdjacent (3, m) [(3, k)] = [(3, m), (3, k)] := by
      rw [mergeAdjacent, if_neg (by dsimp only; omega)]
      rfl
    unfold onReceive
    dsimp only
    rw [if_neg (by omega), if_neg (by omega), if_pos (by omega)]
    show mergeAndCompact ⟨k, [(3, m)] ++ [(3, k)]⟩ = _
    unfold mergeAndCompact
    rw [List.singleton_append, hsort]
    dsimp only
    rw [hmerge]
    rfl
  show ((((new.onReceive 1).onReceive m).markLost (2, 3)).onReceive k).gaps = _
  rw [show new.onReceive 1 = ⟨1, []⟩ from rfl, hjump, hlost, hback]

/-- For every `m` and every `k` strictly between 3 and `m`, the run receive 1, receive `m`,
mark 2 lost, receive `k` leaves overlapping gaps: they cover exactly `3 … m - 1`, `total_missing`
counts `3 … k - 1` twice, and the received `k` is reported missing. -/
theorem lost_downgrade_reports_received_missing (m k : ℕ) (hk : 3 < k) (hkm : k < m) :
    ¬(runOps new [.receive 1, .receive m, .lost (2, 3) (by decide), .receive k]).gaps.Pairwise
        (fun a b => a.2 < b.1) ∧
      (∀ s, s ∈ coveredSeqs
          (runOps new [.receive 1, .receive m, .lost (2, 3) (by decide), .receive k]).gaps ↔
        3 ≤ s ∧ s < m) ∧
      (runOps new [.receive 1, .receive m, .lost (2, 3) (by decide), .receive k]).totalMissing =
        (m - 3) + (k - 3) ∧
      k ∈ coveredSeqs
        (runOps new [.receive 1, .receive m, .lost (2, 3) (by decide), .receive k]).gaps := by
  have hgaps := gaps_after_lost_downgrade m k hk hkm
  have hcovered : ∀ s, s ∈ coveredSeqs [(3, m), (3, k)] ↔ 3 ≤ s ∧ s < m := by
    intro s
    simp only [coveredSeqs, List.flatMap_cons, List.flatMap_nil, List.append_nil,
      List.mem_append, mem_rangeSeqs]
    omega
  refine ⟨?_, ?_, ?_, ?_⟩
  · -- `(3, m)` does not end before `(3, k)` starts
    rw [hgaps, List.pairwise_cons]
    rintro ⟨hfirst, -⟩
    have := hfirst (3, k) List.mem_cons_self
    omega
  · rw [hgaps]
    exact hcovered
  · rw [totalMissing, hgaps]
    simp
  · rw [hgaps, hcovered]
    omega

theorem lost_downgrade_reports_received_missing_at_four :
    (3 < 4 ∧ 4 < 5) ∧
      (¬(runOps new [.receive 1, .receive 5, .lost (2, 3) (by decide), .receive 4]).gaps.Pairwise
          (fun a b => a.2 < b.1) ∧
        (∀ s, s ∈ coveredSeqs
            (runOps new [.receive 1, .receive 5, .lost (2, 3) (by decide), .receive 4]).gaps ↔
          3 ≤ s ∧ s < 5) ∧
        (runOps new [.receive 1, .receive 5, .lost (2, 3) (by decide), .receive 4]).totalMissing =
          (5 - 3) + (4 - 3) ∧
        4 ∈ coveredSeqs
          (runOps new [.receive 1, .receive 5, .lost (2, 3) (by decide), .receive 4]).gaps) :=
  ⟨by decide, lost_downgrade_reports_received_missing 5 4 (by decide) (by decide)⟩

/-- Without any `mark_lost`, a sequence filled beyond `last_seen` is reported missing again by the
next forward jump. -/
example : 5 ∈ coveredSeqs (runOps new [.receive 1, .filled (5, 6) (by decide), .receive 8]).gaps := by
  decide

end GapTracker
end Hdds.Reliability
