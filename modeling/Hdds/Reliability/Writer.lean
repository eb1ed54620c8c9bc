import Hdds.Reliability.Messages

/-! # The writer side of the reliability protocol

`reliability/writer.rs`: `GapTx`, which turns ranges (`build_gap`, in chunks of `gap_start`
and the 256 sequences after it) or explicit lists of lost sequence numbers into GAP messages,
and `WriterRetransmitHandler::on_nack`, which answers a NACK with retransmissions of the cached
samples and GAPs for the others.

* `GapTx.buildGapFromSequences` follows the two nested loops of the source: the outer one takes
  the next sequence as `gap_start`, the inner one collects the following sequences up to
  `gap_start + 256` (`takeWhile`) and resumes after them (`dropWhile`). It is given the length
  of the list as fuel, which always suffices since each round consumes at least one sequence;
  `GapTx.buildGap` is given the length of the range, for the same reason. Its counters are
  naturals, and `cursor + 257` is taken without the wrap-around a cursor within 257 of `2 ^ 64`
  would cause.
* The history cache enters `onNack` only through `cache.get`, so the handler is stated for an
  arbitrary lookup function `cacheGet`. The metrics counters are observability only and are
  left out.
-/

namespace Hdds.Reliability
open Wire Hdds.Rtps
set_option autoImplicit false

/-- `GapTx`. -/
structure GapTx where
  gapCount : ℕ
  totalLost : ℕ
  readerId : EntityId
  writerId : EntityId

namespace GapTx

/-- One message of `build_gap_from_sequences`: the sequences after `gapStart` up to
`gapStart + 256`, and those left for the next round. -/
def extrasAfter (gapStart : ℕ) (rest : List ℕ) : List ℕ × List ℕ :=
  let maxSeq := satAdd 64 gapStart maxBitmapBits
  (((rest.takeWhile (fun seq => seq ≤ maxSeq)).filter (fun seq => seq > gapStart)),
    rest.dropWhile (fun seq => seq ≤ maxSeq))

/-- The outer loop of `build_gap_from_sequences` over the sequences not yet consumed. -/
def buildGapFromSequencesLoop (tx : GapTx) : ℕ → List ℕ → GapTx × List GapMsg
  | 0, _ => (tx, [])
  | _, [] => (tx, [])
  | fuel + 1, gapStart :: rest =>
    let base := satAdd 64 gapStart 1
    -- `i64::try_from(base)` fails: skip this sequence
    if base ≥ 2 ^ 63 then buildGapFromSequencesLoop tx fuel rest
    else
      let split := extrasAfter gapStart rest
      match SequenceNumberSet.fromSequences base split.1 with
      | some gapList =>
        let tx' := { tx with
          gapCount := satAdd 64 tx.gapCount 1
          totalLost := satAdd 64 tx.totalLost (satAdd 64 1 split.1.length) }
        let later := buildGapFromSequencesLoop tx' fuel split.2
        (later.1, ⟨tx.readerId, tx.writerId, gapStart, gapList⟩ :: later.2)
      | none => buildGapFromSequencesLoop tx fuel split.2

/-- `GapTx::build_gap_from_sequences` (the caller passes the sequences sorted ascending). -/
def buildGapFromSequences (tx : GapTx) (sequences : List ℕ) : GapTx × List GapMsg :=
  buildGapFromSequencesLoop tx sequences.length sequences

/-- The loop of `build_gap`: from `cursor` up to `rangeEnd`, one GAP per chunk of `gap_start`
and the 256 sequences after it. -/
def buildGapLoop (tx : GapTx) (rangeEnd : ℕ) : ℕ → ℕ → GapTx × List GapMsg
  | 0, _ => (tx, [])
  | fuel + 1, cursor =>
    if cursor < rangeEnd then
      let chunkEnd := min (cursor + maxBitmapBits + 1) rangeEnd
      match GapMsg.contiguous tx.readerId tx.writerId ⟨cursor, chunkEnd⟩ with
      | some msg =>
        let tx' := { tx with
          gapCount := tx.gapCount + 1
          totalLost := tx.totalLost + (chunkEnd - cursor) }
        let later := buildGapLoop tx' rangeEnd fuel chunkEnd
        (later.1, msg :: later.2)
      | none => buildGapLoop tx rangeEnd fuel chunkEnd
    else (tx, [])

/-- `GapTx::build_gap`, given the length of the range as fuel: each round advances the cursor. -/
def buildGap (tx : GapTx) (range : RtpsRange) : GapTx × List GapMsg :=
  if range.start ≥ range.end then (tx, [])
  else buildGapLoop tx range.end (range.end - range.start) range.start

end GapTx

/-- `NackMsg`: the requested ranges `start..end`. -/
structure NackMsg where
  ranges : List (ℕ × ℕ)

/-- What `on_nack` does for one range: the cache hits are retransmitted, the misses are
handed to `build_gap_from_sequences`. -/
def onNackRange (cacheGet : ℕ → Option (List UInt8)) (gapTx : GapTx) (range : ℕ × ℕ) :
    List (ℕ × List UInt8) × List GapMsg × GapTx :=
  let seqs := rangeSeqs range
  let retransmits := seqs.filterMap fun seq => (cacheGet seq).map fun payload => (seq, payload)
  let missing := seqs.filter fun seq => (cacheGet seq).isNone
  if missing = [] then (retransmits, [], gapTx)
  else
    let built := gapTx.buildGapFromSequences missing
    (retransmits, built.2, built.1)

/-- `WriterRetransmitHandler::on_nack`: retransmits and GAPs accumulated over the ranges of
the NACK in order, with the transmitter's counters. -/
def onNack (cacheGet : ℕ → Option (List UInt8)) (gapTx : GapTx) (nack : NackMsg) :
    (List (ℕ × List UInt8) × List GapMsg) × GapTx :=
  nack.ranges.foldl
    (fun acc range =>
      let out := onNackRange cacheGet acc.2 range
      ((acc.1.1 ++ out.1, acc.1.2 ++ out.2.1), out.2.2))
    (([], []), gapTx)

/-! ## Every requested sequence is answered once -/

/-- What an answer to a NACK for `requested` must be: each requested sequence occurs once,
either retransmitted with the payload the cache holds for it or in a GAP, and a GAP names only
sequences the cache does not hold. -/
structure ServesExactly (cacheGet : ℕ → Option (List UInt8)) (requested : List ℕ)
    (retransmits : List (ℕ × List UInt8)) (gaps : List GapMsg) : Prop where
  perm : (retransmits.map Prod.fst ++ gaps.flatMap GapMsg.lostSequences).Perm requested
  cached : ∀ sp ∈ retransmits, cacheGet sp.1 = some sp.2
  evicted : ∀ g ∈ gaps, ∀ s ∈ g.lostSequences, cacheGet s = none

section ServesExactly

variable {cacheGet : ℕ → Option (List UInt8)}

theorem servesExactly_nil : ServesExactly cacheGet [] [] [] := ⟨by simp, by simp, by simp⟩

theorem ServesExactly.append {req req' : List ℕ} {rs rs' : List (ℕ × List UInt8)}
    {gs gs' : List GapMsg} (h : ServesExactly cacheGet req rs gs)
    (h' : ServesExactly cacheGet req' rs' gs') :
    ServesExactly cacheGet (req ++ req') (rs ++ rs') (gs ++ gs') := by
  refine ⟨?_, ?_, ?_⟩
  · have hp := List.perm_iff_count.mp h.perm
    have hp' := List.perm_iff_count.mp h'.perm
    refine List.perm_iff_count.mpr fun a => ?_
    have ha := hp a
    have ha' := hp' a
    simp only [List.map_append, List.flatMap_append, List.count_append] at ha ha' ⊢
    omega
  · intro sp hsp
    rcases List.mem_append.mp hsp with hsp | hsp
    · exact h.cached sp hsp
    · exact h'.cached sp hsp
  · intro g hg
    rcases List.mem_append.mp hg with hg | hg
    · exact h.evicted g hg
    · exact h'.evicted g hg

end ServesExactly

namespace GapTx

theorem extrasAfter_eq {gapStart : ℕ} {rest : List ℕ} (hlt : gapStart < 2 ^ 63)
    (hgt : ∀ s ∈ rest, gapStart < s) :
    extrasAfter gapStart rest =
      (rest.takeWhile (fun seq => seq ≤ gapStart + maxBitmapBits),
        rest.dropWhile (fun seq => seq ≤ gapStart + maxBitmapBits)) := by
  have hmax : satAdd 64 gapStart maxBitmapBits = gapStart + maxBitmapBits :=
    satAdd_of_lt (by unfold maxBitmapBits; omega)
  unfold extrasAfter
  simp only [hmax]
  congr 1
  refine List.filter_eq_self.mpr fun s hs => ?_
  exact decide_eq_true (hgt s ((List.takeWhile_prefix _).subset hs))

/-- On strictly increasing sequences below `2 ^ 63 - 1` the GAPs list exactly the input. -/
theorem loop_lostSequences (tx : GapTx) (fuel : ℕ) (seqs : List ℕ) (hfuel : seqs.length ≤ fuel)
    (hsorted : seqs.Pairwise (· < ·)) (hlt : ∀ s ∈ seqs, s < 2 ^ 63 - 1) :
    (buildGapFromSequencesLoop tx fuel seqs).2.flatMap GapMsg.lostSequences = seqs := by
  induction fuel generalizing tx seqs with
  | zero =>
    rw [List.length_eq_zero_iff.mp (Nat.le_zero.mp hfuel)]
    rfl
  | succ fuel ih =>
    cases seqs with
    | nil => rfl
    | cons gapStart rest =>
      have hstart := hlt gapStart List.mem_cons_self
      have hgt : ∀ s ∈ rest, gapStart < s := fun s hs => List.rel_of_pairwise_cons hsorted hs
      have hrest := hsorted.of_cons
      have hbase : satAdd 64 gapStart 1 = gapStart + 1 := satAdd_of_lt (by omega)
      -- the window `(gapStart, gapStart + 256]` and what is left after it
      set extras := rest.takeWhile (fun seq => seq ≤ gapStart + maxBitmapBits) with hextras
      set remaining := rest.dropWhile (fun seq => seq ≤ gapStart + maxBitmapBits) with hremaining
      have hsplit : extras ++ remaining = rest := List.takeWhile_append_dropWhile
      have hsub : remaining.Sublist rest := (List.dropWhile_suffix _).sublist
      have hext_sorted : extras.Pairwise (· < ·) :=
        hrest.sublist (List.takeWhile_prefix _).sublist
      obtain ⟨gapList, hset, hiter⟩ := SequenceNumberSet.fromSequences_iter (gapStart + 1)
        (by omega) extras hext_sorted fun s hs => by
          have h1 := hgt s ((List.takeWhile_prefix _).subset hs)
          have h2 : s ≤ gapStart + maxBitmapBits := by
            rw [hextras] at hs
            exact of_decide_eq_true
              (@List.mem_takeWhile_imp _ (fun seq => decide (seq ≤ gapStart + maxBitmapBits)) _ _ hs)
          omega
      have hlost : (GapMsg.mk tx.readerId tx.writerId gapStart gapList).lostSequences =
          gapStart :: extras := by
        unfold GapMsg.lostSequences
        rw [hiter]
        apply List.Pairwise.insertionSort_eq
        refine List.pairwise_cons.mpr ⟨fun s hs => ?_, hext_sorted.imp Nat.le_of_lt⟩
        exact Nat.le_of_lt (hgt s ((List.takeWhile_prefix _).subset hs))
      have hlater := ih
        { tx with
          gapCount := satAdd 64 tx.gapCount 1
          totalLost := satAdd 64 tx.totalLost (satAdd 64 1 extras.length) }
        remaining (by have := hsub.length_le; simp at hfuel; omega) (hrest.sublist hsub)
        (fun s hs => hlt s (List.mem_cons_of_mem _ (hsub.subset hs)))
      simp only [buildGapFromSequencesLoop, hbase, extrasAfter_eq (by omega) hgt]
      rw [if_neg (by omega), hset]
      simp only [List.flatMap_cons, hlost, List.cons_append]
      rw [← hextras, ← hremaining, hlater, hsplit]

theorem buildGapFromSequences_lostSequences (tx : GapTx) (seqs : List ℕ)
    (hsorted : seqs.Pairwise (· < ·)) (hlt : ∀ s ∈ seqs, s < 2 ^ 63 - 1) :
    (tx.buildGapFromSequences seqs).2.flatMap GapMsg.lostSequences = seqs :=
  loop_lostSequences tx seqs.length seqs le_rfl hsorted hlt

/-- From any cursor below `2 ^ 63`, with enough fuel, the loop's GAPs list the sequences from the
cursor to the end of the range, once each and in order, and the counters grow accordingly. -/
theorem buildGapLoop_spec (tx : GapTx) (rangeEnd : ℕ) (hend : rangeEnd < 2 ^ 63) (fuel : ℕ) :
    ∀ cursor, rangeEnd - cursor ≤ fuel →
      (buildGapLoop tx rangeEnd fuel cursor).2.flatMap GapMsg.lostSequences =
          List.range' cursor (rangeEnd - cursor) ∧
        (buildGapLoop tx rangeEnd fuel cursor).1.totalLost = tx.totalLost + (rangeEnd - cursor) ∧
        (buildGapLoop tx rangeEnd fuel cursor).1.gapCount =
          tx.gapCount + (buildGapLoop tx rangeEnd fuel cursor).2.length ∧
        (cursor < rangeEnd → (buildGapLoop tx rangeEnd fuel cursor).2 ≠ []) := by
  induction fuel generalizing tx with
  | zero =>
    intro cursor hfuel
    simp [buildGapLoop, show rangeEnd - cursor = 0 by omega]
    omega
  | succ fuel ih =>
    intro cursor hfuel
    by_cases hcur : cursor < rangeEnd
    · -- one chunk `[cursor, chunkEnd)`, then the rest of the range from `chunkEnd`
      set chunkEnd := min (cursor + maxBitmapBits + 1) rangeEnd with hchunk
      obtain ⟨msg, hmsg, hlost⟩ := GapMsg.contiguous_spec tx.readerId tx.writerId cursor chunkEnd
        (by unfold maxBitmapBits at hchunk; omega) (by omega) (by omega)
      obtain ⟨hseqs, htotal, hcount, -⟩ := ih
        { tx with gapCount := tx.gapCount + 1, totalLost := tx.totalLost + (chunkEnd - cursor) }
        chunkEnd (by unfold maxBitmapBits at hchunk; omega)
      simp only [buildGapLoop, if_pos hcur, ← hchunk, hmsg, List.flatMap_cons, hlost, hseqs,
        htotal, hcount, List.length_cons]
      refine ⟨?_, by omega, by omega, fun _ => List.cons_ne_nil _ _⟩
      have happ := List.range'_append_1 (s := cursor) (m := chunkEnd - cursor)
        (n := rangeEnd - chunkEnd)
      rw [Nat.add_sub_cancel' (by omega : cursor ≤ chunkEnd)] at happ
      rw [happ]
      congr 1
      omega
    · simp [buildGapLoop, hcur, show rangeEnd - cursor = 0 by omega]


/-- `build_gap` over a non-empty range below `2 ^ 63` returns GAPs that list the range once each,
in order, and counts every sequence and every GAP. -/
theorem build_gap_covers_range (tx : GapTx) (a b : ℕ) (hab : a < b) (hb : b < 2 ^ 63) :
    (tx.buildGap ⟨a, b⟩).2 ≠ [] ∧
      (tx.buildGap ⟨a, b⟩).2.flatMap GapMsg.lostSequences = List.range' a (b - a) ∧
      (tx.buildGap ⟨a, b⟩).1.totalLost = tx.totalLost + (b - a) ∧
      (tx.buildGap ⟨a, b⟩).1.gapCount = tx.gapCount + (tx.buildGap ⟨a, b⟩).2.length := by
  obtain ⟨hseqs, htotal, hcount, hne⟩ := buildGapLoop_spec tx b hb (b - a) a le_rfl
  have hbuild : tx.buildGap ⟨a, b⟩ = buildGapLoop tx b (b - a) a := by
    rw [buildGap, if_neg (by simp only; omega)]
  rw [hbuild]
  exact ⟨hne hab, hseqs, htotal, hcount⟩

theorem build_gap_covers_range_three_chunks :
    (0 : ℕ) < 600 ∧ (600 : ℕ) < 2 ^ 63 ∧
      ((GapTx.mk 0 0 entityIdSpdpWriter entityIdSpdpWriter).buildGap ⟨0, 600⟩).2.flatMap
        GapMsg.lostSequences = List.range' 0 600 :=
  ⟨by norm_num, by norm_num,
    (build_gap_covers_range (GapTx.mk 0 0 entityIdSpdpWriter entityIdSpdpWriter) 0 600 (by norm_num)
      (by norm_num)).2.1⟩

end GapTx

theorem map_fst_retransmits (cacheGet : ℕ → Option (List UInt8)) (seqs : List ℕ) :
    (seqs.filterMap fun seq => (cacheGet seq).map fun payload => (seq, payload)).map Prod.fst =
      seqs.filter fun seq => (cacheGet seq).isSome := by
  induction seqs with
  | nil => rfl
  | cons seq seqs ih => cases h : cacheGet seq <;> simp [h, ih]

theorem onNackRange_serves (cacheGet : ℕ → Option (List UInt8)) (gapTx : GapTx)
    (range : ℕ × ℕ) (hlt : ∀ s ∈ rangeSeqs range, s < 2 ^ 63 - 1) :
    ServesExactly cacheGet (rangeSeqs range) (onNackRange cacheGet gapTx range).1
      (onNackRange cacheGet gapTx range).2.1 := by
  set missing := (rangeSeqs range).filter fun seq => (cacheGet seq).isNone with hmissing
  have hfst : (onNackRange cacheGet gapTx range).1 =
      (rangeSeqs range).filterMap fun seq => (cacheGet seq).map fun payload => (seq, payload) := by
    simp only [onNackRange]
    split <;> rfl
  have hgaps : ((onNackRange cacheGet gapTx range).2.1).flatMap GapMsg.lostSequences = missing := by
    by_cases h : missing = []
    · simp only [onNackRange, ← hmissing, h, if_true, List.flatMap_nil]
    · simp only [onNackRange, ← hmissing, h, if_false]
      exact GapTx.buildGapFromSequences_lostSequences _ _
        ((List.pairwise_lt_range' 1).filter _) fun s hs => hlt s (List.mem_of_mem_filter hs)
  refine ⟨?_, ?_, ?_⟩
  · rw [hgaps, hfst, map_fst_retransmits]
    have hnone : missing = (rangeSeqs range).filter fun seq => !(cacheGet seq).isSome := by
      simp [hmissing]
    rw [hnone]
    exact List.filter_append_perm _ _
  · intro sp hsp
    rw [hfst] at hsp
    obtain ⟨seq, -, hseq⟩ := List.mem_filterMap.mp hsp
    obtain ⟨payload, hget, rfl⟩ := Option.map_eq_some_iff.mp hseq
    exact hget
  · intro g hg s hs
    have hmem : s ∈ missing := by
      rw [← hgaps]
      exact List.mem_flatMap.mpr ⟨g, hg, hs⟩
    simpa using List.of_mem_filter hmem

theorem onNack_fold_serves (cacheGet : ℕ → Option (List UInt8)) (ranges : List (ℕ × ℕ))
    (hlt : ∀ s ∈ ranges.flatMap rangeSeqs, s < 2 ^ 63 - 1) (requested : List ℕ)
    (acc : (List (ℕ × List UInt8) × List GapMsg) × GapTx)
    (hacc : ServesExactly cacheGet requested acc.1.1 acc.1.2) :
    let res := ranges.foldl
      (fun acc range =>
        let out := onNackRange cacheGet acc.2 range
        ((acc.1.1 ++ out.1, acc.1.2 ++ out.2.1), out.2.2)) acc
    ServesExactly cacheGet (requested ++ ranges.flatMap rangeSeqs) res.1.1 res.1.2 := by
  induction ranges generalizing requested acc with
  | nil => simpa using hacc
  | cons range ranges ih =>
    have hrange := onNackRange_serves cacheGet acc.2 range
      fun s hs => hlt s (List.mem_flatMap.mpr ⟨range, List.mem_cons_self, hs⟩)
    have hrest : ∀ s ∈ ranges.flatMap rangeSeqs, s < 2 ^ 63 - 1 := fun s hs =>
      hlt s (List.flatMap_cons ▸ List.mem_append_right (rangeSeqs range) hs)
    have hnext := ih hrest (requested ++ rangeSeqs range)
      ((acc.1.1 ++ (onNackRange cacheGet acc.2 range).1,
        acc.1.2 ++ (onNackRange cacheGet acc.2 range).2.1), (onNackRange cacheGet acc.2 range).2.2)
      (hacc.append hrange)
    simpa only [List.foldl_cons, List.flatMap_cons, List.append_assoc] using hnext

/-- A NACK listing sequence 1 in two ranges, with sequence 1 gone from the cache: two GAPs
announce it. -/
theorem onNack_repeats_overlapping_ranges :
    ((onNack (fun _ => none) ⟨0, 0, ByteArr.zero 4, ByteArr.zero 4⟩ ⟨[(1, 2), (1, 2)]⟩).1.2.map
      GapMsg.lostSequences) = [[1], [1]] := by
  decide

theorem onNack_serves_each_request (cacheGet : ℕ → Option (List UInt8)) (gapTx : GapTx)
    (nack : NackMsg) (hlt : ∀ s ∈ nack.ranges.flatMap rangeSeqs, s < 2 ^ 63 - 1) :
    ServesExactly cacheGet (nack.ranges.flatMap rangeSeqs) (onNack cacheGet gapTx nack).1.1
      (onNack cacheGet gapTx nack).1.2 := by
  have h := onNack_fold_serves cacheGet nack.ranges hlt [] (([], []), gapTx) servesExactly_nil
  rw [List.nil_append] at h
  exact h

/-- Sequences `1 … 3` requested, only sequence 2 still cached. -/
theorem onNack_serves_each_request_mixed :
    ServesExactly (fun s => if s = 2 then some [7] else none) ([(1, 4)].flatMap rangeSeqs)
      (onNack (fun s => if s = 2 then some [7] else none) ⟨0, 0, ByteArr.zero 4, ByteArr.zero 4⟩
        ⟨[(1, 4)]⟩).1.1
      (onNack (fun s => if s = 2 then some [7] else none) ⟨0, 0, ByteArr.zero 4, ByteArr.zero 4⟩
        ⟨[(1, 4)]⟩).1.2 :=
  onNack_serves_each_request _ _ ⟨[(1, 4)]⟩ (by decide)

end Hdds.Reliability
