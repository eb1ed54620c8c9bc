import Hdds.Rtps.Encoder
import Hdds.Discovery.ControlParser

/-! # Reliability messages: sequence number sets and GAP

`reliability/messages.rs` and `reliability/rtps_range.rs`: the `SequenceNumberSet` a GAP
carries (a base and a 256-bit bitmap, most significant bit first), its iterator, the `GapMsg`
with its CDR encoding and decoding and its expansions `lostSequences` and `lostRanges`.

* `BitmapWords` is `[u32; BITMAP_WORDS]`: eight words below `2 ^ 32`. `SequenceNumberSet`
  carries `numBits ≤ 256`, which every constructor of the Rust type guarantees and which keeps
  every index `bitmap[offset / 32]` of the iterator in bounds.
* `SequenceNumberSet.iter` is the list the iterator yields, `fromSequences` the constructor
  from explicit sequence numbers, with its early returns as `none`.
* `i64` fields are integers; `x as u64` of an `i64` is `x mod 2 ^ 64` (`asU64`).
* The `u64` arithmetic of `lost_ranges` (`prev + 1`, and `r.end - r.start` in its callers)
  wraps, as in a release build.
-/

namespace Hdds.Reliability
open Wire Hdds.Rtps
set_option autoImplicit false

/-- `MAX_BITMAP_BITS`. -/
def maxBitmapBits : ℕ := 256

/-- `x as u64` for an `i64` value `x`. -/
def asU64 (x : ℤ) : ℕ := (x % 2 ^ 64).toNat

theorem asU64_of_nonneg {x : ℤ} (h0 : 0 ≤ x) (h : x < 2 ^ 64) : asU64 x = x.toNat := by
  unfold asU64
  rw [Int.emod_eq_of_lt h0 h]

/-- `x as i64` for a `u64` value `x`: the two's complement reading of its 64 bits. -/
def asI64 (x : ℕ) : ℤ := Int.bmod x (2 ^ 64)

theorem asI64_of_lt {x : ℕ} (h : x < 2 ^ 63) : asI64 x = x := by
  unfold asI64
  exact Int.bmod_eq_of_le (by omega) (by norm_num; omega)

/-! ## HEARTBEAT -/

/-- `HeartbeatMsg`. -/
structure HeartbeatMsg where
  firstSeq : ℕ
  lastSeq : ℕ
  count : ℕ
  writerGuidPrefix : GuidPrefix
  writerEntityId : EntityId
  readerEntityId : EntityId
deriving DecidableEq, Repr

namespace HeartbeatMsg

/-- `HeartbeatMsg::new`: zero GUID prefix and entity ids. -/
def new (firstSeq lastSeq count : ℕ) : HeartbeatMsg :=
  ⟨firstSeq, lastSeq, count, ByteArr.zero 12, ByteArr.zero 4, ByteArr.zero 4⟩

/-- `encode_cdr2_le`: the legacy 20-byte payload. -/
def encodeCdr2Le (hb : HeartbeatMsg) : List UInt8 :=
  toLE 8 hb.firstSeq ++ toLE 8 hb.lastSeq ++ toLE 4 hb.count

/-- `decode_cdr2_le`: sequence information only, zero GUID prefix and entity ids. -/
def decodeCdr2Le (buf : List UInt8) : Option HeartbeatMsg :=
  if buf.length < 20 then none
  else some (new (ofLE (field buf 0 8)) (ofLE (field buf 8 8)) (ofLE (field buf 16 4)))

/-- A `SequenceNumber_t` of a HEARTBEAT payload read as
`((high as i64) << 32 | low as i64) as u64`; the sign extension of `high` cancels modulo
`2 ^ 64`. -/
def seqAt (payload : List UInt8) (off : ℕ) : ℕ :=
  ofLE (field payload off 4) * 2 ^ 32 + ofLE (field payload (off + 4) 4)

/-- The submessage walk of `decode_from_packet`, from `offset`. Lengths are always read
little-endian; the walk pads a submessage to four bytes unless flag `0x02` is set. Every
iteration advances by at least four bytes, so the packet length is enough fuel. -/
def findHeartbeat (packet : List UInt8) (writerGuidPrefix : GuidPrefix) :
    ℕ → ℕ → Option HeartbeatMsg
  | 0, _ => none
  | fuel + 1, offset =>
    if offset + 4 ≤ packet.length then
      let submsgId := packet.getD offset 0
      let submsgFlags := packet.getD (offset + 1) 0
      let submsgLen := ofLE (field packet (offset + 2) 2)
      if submsgId = 0x07 then
        let payloadStart := offset + 4
        let payloadEnd := payloadStart + submsgLen
        if payloadEnd > packet.length ∨ submsgLen < 28 then none
        else
          let payload := field packet payloadStart submsgLen
          match ByteArr.ofList? (field payload 0 4), ByteArr.ofList? (field payload 4 4) with
          | some readerEntityId, some writerEntityId =>
            some ⟨seqAt payload 8, seqAt payload 16, ofLE (field payload 24 4),
              writerGuidPrefix, writerEntityId, readerEntityId⟩
          | _, _ => none
      else
        let next := offset + 4 + submsgLen
        let next := if submsgFlags &&& 0x02 = 0 ∧ submsgLen % 4 ≠ 0 then next + (4 - submsgLen % 4)
          else next
        findHeartbeat packet writerGuidPrefix fuel next
    else none

/-- `decode_from_packet`: the GUID prefix of the RTPS header and the first HEARTBEAT. -/
def decodeFromPacket (packet : List UInt8) : Option HeartbeatMsg :=
  if packet.length < 52 then none
  else if packet.take 4 ≠ rtpsMagic then none
  else (ByteArr.ofList? (field packet 8 12)).bind fun writerGuidPrefix =>
    findHeartbeat packet writerGuidPrefix packet.length 20

end HeartbeatMsg

/-! ## GAP -/

/-- `[u32; BITMAP_WORDS]`. -/
structure BitmapWords where
  words : List ℕ
  length_eq : words.length = 8
  fits : Bitmap.Fits32 words

/-- `[0; BITMAP_WORDS]`. -/
def BitmapWords.zero : BitmapWords := ⟨List.replicate 8 0, List.length_replicate, Bitmap.fits32_replicate_zero 8⟩

/-- `bitmap[offset / 32] |= 1 << (31 - offset % 32)`. -/
def BitmapWords.set (b : BitmapWords) (offset : ℕ) : BitmapWords :=
  ⟨Bitmap.setMsb b.words offset, by simp [b.length_eq], b.fits.setMsb offset⟩

/-- `SequenceNumberSet`. -/
structure SequenceNumberSet where
  base : ℤ
  numBits : ℕ
  bitmap : BitmapWords
  numBits_le : numBits ≤ maxBitmapBits

namespace SequenceNumberSet

/-- `SequenceNumberSet::empty`. -/
def empty (base : ℤ) : SequenceNumberSet := ⟨base, 0, BitmapWords.zero, by decide⟩

/-- One step of the loop of `from_sequences`: mark `seq`, or fail when it lies outside
`[base, base + 256)`. -/
def fromSequencesStep (baseU64 : ℕ) (acc : BitmapWords × ℕ) (seq : ℕ) : Option (BitmapWords × ℕ) :=
  if seq < baseU64 then none
  else
    let offset := seq - baseU64
    if offset ≥ maxBitmapBits then none
    else some (acc.1.set offset, max acc.2 offset)

/-- `num_bits` after the loop: the words up to the one holding `max_offset`, in bits. -/
def numBitsFor (maxOffset : ℕ) : ℕ := if maxOffset = 0 then 32 else (maxOffset / 32 + 1) * 32

theorem numBitsFor_le {maxOffset : ℕ} (h : maxOffset < maxBitmapBits) :
    numBitsFor maxOffset ≤ maxBitmapBits := by
  unfold numBitsFor maxBitmapBits at *
  split <;> omega

/-- `SequenceNumberSet::from_sequences`. -/
def fromSequences (base : ℤ) (sequences : List ℕ) : Option SequenceNumberSet :=
  if base < 0 then none
  else if sequences = [] then some (empty base)
  else do
    let (bitmap, maxOffset) ← sequences.foldlM (fromSequencesStep base.toNat) (BitmapWords.zero, 0)
    if h : maxOffset < maxBitmapBits then some ⟨base, numBitsFor maxOffset, bitmap, numBitsFor_le h⟩
    -- unreachable: every offset taken into `max_offset` is below `MAX_BITMAP_BITS`
    else none

/-- `SequenceNumberSet::word_count_for_bits`. -/
def wordCountForBits (bits : ℕ) : ℕ := if bits = 0 then 0 else (bits + 31) / 32

/-- `SequenceNumberSet::word_count`. -/
def wordCount (s : SequenceNumberSet) : ℕ := wordCountForBits s.numBits

/-- `SequenceNumberSet::from_raw`: the decoded words, padded with zeros to eight. -/
def fromRaw (base : ℤ) (numBits : ℕ) (words : List UInt32) : Option SequenceNumberSet :=
  if hbits : base < 0 ∨ numBits > maxBitmapBits then none
  else if hwords : words.length > 8 then none
  else some ⟨base, numBits,
    ⟨words.map UInt32.toNat ++ List.replicate (8 - words.length) 0, by simp; omega,
      Bitmap.fits32_of_forall (by
        simp only [List.mem_append, List.mem_map, List.mem_replicate]
        rintro w (⟨u, -, rfl⟩ | ⟨-, rfl⟩)
        · exact u.toNat_lt
        · norm_num)⟩, by omega⟩

/-- The sequence numbers `SequenceNumberIter` yields, in order: `base + offset` for every
`offset < num_bits` whose bit is set. -/
def iter (s : SequenceNumberSet) : List ℕ :=
  (List.range s.numBits).filterMap fun offset =>
    if s.bitmap.words.getD (offset / 32) 0 &&& 1 <<< (31 - offset % 32) != 0 then
      some ((asU64 s.base + offset) % 2 ^ 64)
    else none

/-- The words past `word_count` are zero: the words `encode_cdr2_le` leaves out are those
`from_raw` fills in. -/
def Canonical (s : SequenceNumberSet) : Prop :=
  ∀ j, s.wordCount ≤ j → s.bitmap.words.getD j 0 = 0

/-! ### What the iterator yields -/

theorem lt_numBitsFor (maxOffset : ℕ) : maxOffset < numBitsFor maxOffset := by
  unfold numBitsFor
  split <;> omega

theorem mem_iter {set : SequenceNumberSet} {x : ℕ} :
    x ∈ set.iter ↔ ∃ o < set.numBits,
      Bitmap.msb set.bitmap.words o = true ∧ x = (asU64 set.base + o) % 2 ^ 64 := by
  simp only [iter, List.mem_filterMap, List.mem_range, bne_iff_ne, ne_eq, Bitmap.msb]
  constructor
  · rintro ⟨o, ho, hx⟩
    split at hx
    · rename_i hbit
      exact ⟨o, ho, (Bitmap.and_shift_ne_zero _ _).mp hbit, (Option.some.inj hx).symm⟩
    · cases hx
  · rintro ⟨o, ho, hbit, rfl⟩
    exact ⟨o, ho, by rw [if_pos ((Bitmap.and_shift_ne_zero _ _).mpr hbit)]⟩

/-- Below `2 ^ 64` the iterator never wraps around, so it yields strictly increasing values. -/
theorem iter_pairwise (set : SequenceNumberSet) (h : asU64 set.base + set.numBits ≤ 2 ^ 64) :
    set.iter.Pairwise (· < ·) := by
  have hr : (List.range set.numBits).Pairwise (fun o o' => o < o' ∧ o' < set.numBits) :=
    List.pairwise_lt_range.imp_of_mem fun _ ho' hlt => ⟨hlt, List.mem_range.mp ho'⟩
  apply hr.filterMap
  rintro o o' ⟨hlt, ho'⟩ b hb b' hb'
  split at hb <;> split at hb' <;> simp only [Option.some.injEq, reduceCtorEq] at hb hb'
  subst hb hb'
  rw [Nat.mod_eq_of_lt (by omega), Nat.mod_eq_of_lt (by omega)]
  omega

/-! ### The set `from_sequences` builds -/

theorem asU64_natCast {b : ℕ} (h : b < 2 ^ 64) : asU64 b = b := by
  rw [asU64_of_nonneg (Int.natCast_nonneg b) (by exact_mod_cast h), Int.toNat_natCast]

theorem fromSequencesStep_eq (b : ℕ) (acc : BitmapWords × ℕ) (s : ℕ) :
    fromSequencesStep b acc s = if b ≤ s ∧ s < b + maxBitmapBits then
      some (acc.1.set (s - b), max acc.2 (s - b)) else none := by
  unfold fromSequencesStep
  dsimp only
  by_cases hs : b ≤ s ∧ s < b + maxBitmapBits
  · rw [if_pos hs, if_neg (by omega), if_neg (by omega)]
  · rw [if_neg hs]
    split_ifs <;> first | rfl | omega

/-- The loop of `from_sequences` over sequences inside the window `[b, b + 256)`: it never
fails, marks exactly their offsets and ends with a `max_offset` at least each of them. -/
theorem foldlM_fromSequencesStep (b : ℕ) (seqs : List ℕ)
    (hin : ∀ s ∈ seqs, b ≤ s ∧ s < b + maxBitmapBits) (acc : BitmapWords × ℕ)
    (hacc : acc.2 < maxBitmapBits) :
    ∃ res, seqs.foldlM (fromSequencesStep b) acc = some res ∧ acc.2 ≤ res.2 ∧
      res.2 < maxBitmapBits ∧ (∀ s ∈ seqs, s - b ≤ res.2) ∧
      ∀ o, Bitmap.msb res.1.words o = (Bitmap.msb acc.1.words o || seqs.any (o = · - b)) := by
  induction seqs generalizing acc with
  | nil => exact ⟨acc, rfl, le_rfl, hacc, by simp, by simp⟩
  | cons s seqs ih =>
    have hs := hin s List.mem_cons_self
    have hstep : fromSequencesStep b acc s = some (acc.1.set (s - b), max acc.2 (s - b)) := by
      rw [fromSequencesStep_eq, if_pos hs]
    have hoff : s - b < maxBitmapBits := by
      unfold maxBitmapBits at hs ⊢
      omega
    obtain ⟨res, hres, hle, hlt, hmax, hmsb⟩ :=
      ih (fun t ht => hin t (List.mem_cons_of_mem s ht)) (acc.1.set (s - b), max acc.2 (s - b))
        (max_lt hacc hoff)
    refine ⟨res, by rw [List.foldlM_cons, hstep]; exact hres, le_of_max_le_left hle, hlt, ?_, ?_⟩
    · intro t ht
      rcases List.mem_cons.mp ht with rfl | ht
      · exact le_of_max_le_right hle
      · exact hmax t ht
    · intro o
      have hword : (s - b) / 32 < acc.1.words.length := by
        rw [acc.1.length_eq]
        unfold maxBitmapBits at hoff
        omega
      rw [hmsb o, BitmapWords.set, Bitmap.msb_setMsb]
      simp [hword, Bool.or_assoc]

/-- The loop stops with `None` at the first sequence outside the window. -/
theorem foldlM_fromSequencesStep_eq_none (b : ℕ) (seqs : List ℕ)
    (hout : ∃ s ∈ seqs, ¬(b ≤ s ∧ s < b + maxBitmapBits)) (acc : BitmapWords × ℕ) :
    seqs.foldlM (fromSequencesStep b) acc = none := by
  induction seqs generalizing acc with
  | nil => simp at hout
  | cons s seqs ih =>
    rw [List.foldlM_cons, fromSequencesStep_eq]
    split_ifs with hs
    · obtain ⟨t, ht, htout⟩ := hout
      rcases List.mem_cons.mp ht with rfl | ht
      · exact absurd hs htout
      · exact ih ⟨t, ht, htout⟩ _
    · rfl

theorem wordCountForBits_numBitsFor (maxOffset : ℕ) :
    wordCountForBits (numBitsFor maxOffset) = maxOffset / 32 + 1 := by
  unfold wordCountForBits numBitsFor
  split <;> split <;> omega

/-- Sequences inside the window `[b, b + 256)`, in any order and with repetitions: `from_sequences`
succeeds with a set based at `b` that yields their distinct values in increasing order and has no
bit past its last word. -/
theorem fromSequences_spec (b : ℕ) (hb : b < 2 ^ 63) (seqs : List ℕ)
    (hin : ∀ s ∈ seqs, b ≤ s ∧ s < b + maxBitmapBits) :
    ∃ set, fromSequences b seqs = some set ∧ set.base = b ∧ set.iter.Pairwise (· < ·) ∧
      (∀ x, x ∈ set.iter ↔ x ∈ seqs) ∧ set.Canonical := by
  have hbase : asU64 b = b := asU64_natCast (by omega)
  by_cases hnil : seqs = []
  · subst hnil
    refine ⟨empty b, by simp [fromSequences], rfl, by simp [iter, empty], by simp [iter, empty], ?_⟩
    intro j _
    show (List.replicate 8 0).getD j 0 = 0
    rw [List.getD_eq_getElem?_getD, List.getElem?_replicate]
    split <;> rfl
  obtain ⟨res, hres, -, hlt, hmax, hmsb⟩ :=
    foldlM_fromSequencesStep b seqs hin (BitmapWords.zero, 0) (by decide)
  -- bit `o` of the final bitmap is set exactly when some sequence has offset `o`
  have hbits : ∀ o, Bitmap.msb res.1.words o = seqs.any (o = · - b) := by
    intro o
    rw [hmsb, BitmapWords.zero, Bitmap.msb_replicate_zero, Bool.false_or]
  let set : SequenceNumberSet := ⟨b, numBitsFor res.2, res.1, numBitsFor_le hlt⟩
  have hwindow : asU64 set.base + set.numBits ≤ 2 ^ 64 := by
    change asU64 b + numBitsFor res.2 ≤ 2 ^ 64
    have := numBitsFor_le hlt
    unfold maxBitmapBits at this
    omega
  refine ⟨set, by simp [set, fromSequences, hnil, hres, hlt], rfl, iter_pairwise set hwindow, ?_, ?_⟩
  · intro x
    rw [mem_iter]
    constructor
    · rintro ⟨o, -, hbit, rfl⟩
      rw [hbits, List.any_eq_true] at hbit
      obtain ⟨s, hs, ho⟩ := hbit
      have hs' := hin s hs
      unfold maxBitmapBits at hs'
      simp only [decide_eq_true_eq] at ho
      rw [show set.base = (b : ℤ) from rfl, hbase, ho, Nat.mod_eq_of_lt (by omega),
        Nat.add_sub_cancel' hs'.1]
      exact hs
    · intro hx
      have hx' := hin x hx
      refine ⟨x - b, lt_of_le_of_lt (hmax x hx) (lt_numBitsFor _), ?_, ?_⟩
      · rw [show set.bitmap = res.1 from rfl, hbits, List.any_eq_true]
        exact ⟨x, hx, by simp⟩
      · rw [show set.base = (b : ℤ) from rfl, hbase,
          Nat.mod_eq_of_lt (by unfold maxBitmapBits at hx'; omega)]
        omega
  · -- every offset is at most `max_offset`, so no bit of a word past `max_offset / 32` is set
    intro j hj
    rw [wordCount, show set.numBits = numBitsFor res.2 from rfl, wordCountForBits_numBitsFor] at hj
    apply Bitmap.getD_eq_zero_of_msb res.1.fits j
    intro i _
    rw [hbits, List.any_eq_false]
    intro s hs heq
    have := hmax s hs
    simp only [decide_eq_true_eq] at heq
    omega

/-- Sequences strictly increasing inside `[b, b + 256)` give a set that yields exactly them. -/
theorem fromSequences_iter (b : ℕ) (hb : b < 2 ^ 63) (seqs : List ℕ)
    (hsorted : seqs.Pairwise (· < ·)) (hin : ∀ s ∈ seqs, b ≤ s ∧ s < b + maxBitmapBits) :
    ∃ set, fromSequences b seqs = some set ∧ set.iter = seqs := by
  obtain ⟨set, hset, -, hpair, hmem, -⟩ := fromSequences_spec b hb seqs hin
  exact ⟨set, hset, hpair.eq_of_mem_iff hsorted hmem⟩

theorem fromSequences_eq_none (b : ℕ) (seqs : List ℕ)
    (hout : ∃ s ∈ seqs, ¬(b ≤ s ∧ s < b + maxBitmapBits)) : fromSequences b seqs = none := by
  have hne : seqs ≠ [] := by
    rintro rfl
    simp at hout
  simp [fromSequences, hne, foldlM_fromSequencesStep_eq_none b seqs hout]

/-! ### Decoding -/

theorem wordCount_le (s : SequenceNumberSet) : s.wordCount ≤ 8 := by
  have := s.numBits_le
  unfold wordCount wordCountForBits
  unfold maxBitmapBits at this
  split <;> omega

/-- `from_raw` given the first `word_count` words of a canonical set rebuilds the set. -/
theorem fromRaw_words (s : SequenceNumberSet) (hbase : 0 ≤ s.base) (hcanon : s.Canonical) :
    fromRaw s.base s.numBits
      ((List.range s.wordCount).map fun w => UInt32.ofNat (s.bitmap.words.getD w 0)) = some s := by
  have hwc := s.wordCount_le
  have hle := s.numBits_le
  -- the words read back are the first `word_count` words, and the zeros after them are the rest
  have hwords : ((List.range s.wordCount).map fun w => UInt32.ofNat (s.bitmap.words.getD w 0)).map
      UInt32.toNat ++ List.replicate (8 - s.wordCount) 0 = s.bitmap.words := by
    apply List.ext_getElem
    · simp [s.bitmap.length_eq]
      omega
    · intro i h1 h2
      rw [List.getElem_append]
      split
      · rename_i hi
        simp only [List.length_map, List.length_range] at hi
        simp only [List.getElem_map, List.getElem_range, UInt32.toNat_ofNat']
        rw [Nat.mod_eq_of_lt (s.bitmap.fits i), List.getD_eq_getElem?_getD,
          List.getElem?_eq_getElem h2, Option.getD_some]
      · rename_i hi
        simp only [List.length_map, List.length_range, not_lt] at hi
        have := hcanon i hi
        rw [List.getD_eq_getElem?_getD, List.getElem?_eq_getElem h2, Option.getD_some] at this
        simp [this]
  rw [fromRaw, dif_neg (by omega), dif_neg (by simpa using hwc)]
  obtain ⟨base, numBits, ⟨words, hlen, hfits⟩, hnum⟩ := s
  simp only [List.length_map, List.length_range] at hwords ⊢
  simp only [Option.some.injEq, mk.injEq, BitmapWords.mk.injEq, true_and]
  exact hwords

end SequenceNumberSet

/-- `RtpsRange`: the range `start..end` (the constructors assert `start < end`). -/
structure RtpsRange where
  start : ℕ
  «end» : ℕ
deriving DecidableEq, Repr

/-- The sequence numbers of the `Range<u64>` `start..end`, in order. -/
def rangeSeqs (range : ℕ × ℕ) : List ℕ := List.range' range.1 (range.2 - range.1)

@[simp] theorem mem_rangeSeqs {s : ℕ} {range : ℕ × ℕ} :
    s ∈ rangeSeqs range ↔ range.1 ≤ s ∧ s < range.2 := by
  simp only [rangeSeqs, List.mem_range'_1]
  omega

/-- `GapMsg`. -/
structure GapMsg where
  readerId : EntityId
  writerId : EntityId
  gapStart : ℕ
  gapList : SequenceNumberSet

namespace GapMsg

/-- `GapMsg::contiguous`: the range `[start, end)` as `gap_start = start` and the set of
`start + 1 … end - 1` based at `start + 1`. -/
def contiguous (readerId writerId : EntityId) (range : RtpsRange) : Option GapMsg :=
  if range.start ≥ range.end then none
  else do
    let base := asI64 (range.start + 1)
    let gapList ← SequenceNumberSet.fromSequences base (List.range' (range.start + 1) (range.end - (range.start + 1)))
    some ⟨readerId, writerId, range.start, gapList⟩

/-- `GapMsg::lost_sequences`: `gap_start` and the members of the set, sorted (any sort of
naturals gives the same list as `sort_unstable`). -/
def lostSequences (g : GapMsg) : List ℕ :=
  (g.gapStart :: g.gapList.iter).insertionSort (· ≤ ·)

/-- The loop of `lost_ranges` over the sorted sequences after the first: the run being read
started at `start` and has reached `prev`. `prev + 1`, there and in
`RtpsRange::from_inclusive`, is a `u64` addition, which wraps at `u64::MAX` in a release
build. -/
def lostRangesLoop (start prev : ℕ) : List ℕ → List (ℕ × ℕ)
  | [] => [(start, (prev + 1) % 2 ^ 64)]
  | seq :: rest =>
    if seq = (prev + 1) % 2 ^ 64 then lostRangesLoop start seq rest
    else (start, (prev + 1) % 2 ^ 64) :: lostRangesLoop seq seq rest

/-- `GapMsg::lost_ranges`: the runs of consecutive values of `lost_sequences`, each closed by
`RtpsRange::from_inclusive(start, prev)`. -/
def lostRanges (g : GapMsg) : List (ℕ × ℕ) :=
  match g.lostSequences with
  | [] => []
  | first :: rest => lostRangesLoop first first rest

/-- `r.end - r.start` of a `Range<u64>`: a `u64` subtraction, which wraps. -/
def rangeLen (range : ℕ × ℕ) : ℕ := (range.2 + 2 ^ 64 - range.1) % 2 ^ 64

/-- `GapMsg::encode_cdr2_le`. -/
def encodeCdr2Le (g : GapMsg) : List UInt8 :=
  g.readerId.bytes ++ g.writerId.bytes ++ toLE 8 g.gapStart ++ toLE 8 (asU64 g.gapList.base) ++
    toLE 4 g.gapList.numBits ++
    (List.range g.gapList.wordCount).flatMap (fun w => toLE 4 (g.gapList.bitmap.words.getD w 0))

/-- `GapMsg::decode_cdr2_le`. -/
def decodeCdr2Le (buf : List UInt8) : Option GapMsg :=
  if buf.length < 4 + 4 + 8 + 8 + 4 then none
  else do
    let readerId ← ByteArr.ofList? (field buf 0 4)
    let writerId ← ByteArr.ofList? (field buf 4 4)
    let gapStart := asI64 (ofLE (field buf 8 8))
    if gapStart < 0 then none
    else
      let base := asI64 (ofLE (field buf 16 8))
      let numBits := ofLE (field buf 24 4)
      if numBits > maxBitmapBits then none
      else
        let wordCount := SequenceNumberSet.wordCountForBits numBits
        if buf.length < 28 + wordCount * 4 then none
        else
          let words := (List.range wordCount).map fun w =>
            UInt32.ofNat (ofLE (field buf (28 + 4 * w) 4))
          let gapList ← SequenceNumberSet.fromRaw base numBits words
          some ⟨readerId, writerId, gapStart.toNat, gapList⟩

/-! ### Round trip -/

/-- The encoding as a list of blocks: the fixed header fields, then one block per word. -/
theorem encodeCdr2Le_eq_flatten (g : GapMsg) :
    g.encodeCdr2Le = ([g.readerId.bytes, g.writerId.bytes, toLE 8 g.gapStart,
      toLE 8 (asU64 g.gapList.base), toLE 4 g.gapList.numBits] ++
      (List.range g.gapList.wordCount).map fun w =>
        toLE 4 (g.gapList.bitmap.words.getD w 0)).flatten := by
  simp [encodeCdr2Le, List.flatMap_def]

theorem readField_encodeCdr2Le (g : GapMsg) :
    let buf := g.encodeCdr2Le
    field buf 0 4 = g.readerId.bytes ∧ field buf 4 4 = g.writerId.bytes ∧
      field buf 8 8 = toLE 8 g.gapStart ∧ field buf 16 8 = toLE 8 (asU64 g.gapList.base) ∧
      field buf 24 4 = toLE 4 g.gapList.numBits ∧
      (∀ w < g.gapList.wordCount,
        field buf (28 + 4 * w) 4 = toLE 4 (g.gapList.bitmap.words.getD w 0)) ∧
      buf.length = 28 + g.gapList.wordCount * 4 := by
  dsimp only
  rw [encodeCdr2Le_eq_flatten]
  set blocks := [g.readerId.bytes, g.writerId.bytes, toLE 8 g.gapStart,
      toLE 8 (asU64 g.gapList.base), toLE 4 g.gapList.numBits] ++
      (List.range g.gapList.wordCount).map fun w => toLE 4 (g.gapList.bitmap.words.getD w 0)
    with hblocks
  -- each field is one block of the concatenation
  have hread := field_flatten blocks
  refine ⟨?_, ?_, ?_, ?_, ?_, ?_, ?_⟩
  · simpa [hblocks, ByteArr.length_eq] using hread 0 (by simp [hblocks])
  · simpa [hblocks, ByteArr.length_eq] using hread 1 (by simp [hblocks])
  · simpa [hblocks, ByteArr.length_eq] using hread 2 (by simp [hblocks])
  · simpa [hblocks, ByteArr.length_eq] using hread 3 (by simp [hblocks])
  · simpa [hblocks, ByteArr.length_eq] using hread 4 (by simp [hblocks])
  · intro w hw
    -- `toLE_succ` would spell the word blocks out byte by byte; their lengths are all we need
    have hoff : ((blocks.take (w + 5)).map List.length).sum = 28 + 4 * w := by
      simp [hblocks, ByteArr.length_eq, -toLE_succ, Function.comp_def, List.map_const',
        List.take_replicate]
      omega
    have hbound : w + 5 < blocks.length := by
      simp [hblocks]
      omega
    have hget : blocks[w + 5] = toLE 4 (g.gapList.bitmap.words.getD w 0) := by
      simp [hblocks, -toLE_succ]
    have := hread (w + 5) hbound
    rwa [hoff, hget, length_toLE] at this
  · simp [hblocks, ByteArr.length_eq, -toLE_succ, Function.comp_def, List.map_const']
    omega

/-- What `encode_cdr2_le` writes `decode_cdr2_le` reads back, for a `gap_start` and a set base
that fit `i64` and a set without bits past its last word. -/
theorem decodeCdr2Le_encodeCdr2Le (g : GapMsg) (hstart : g.gapStart < 2 ^ 63)
    (hbase : 0 ≤ g.gapList.base) (hbase' : g.gapList.base < 2 ^ 63)
    (hcanon : g.gapList.Canonical) :
    decodeCdr2Le g.encodeCdr2Le = some g := by
  obtain ⟨h0, h1, h2, h3, h4, hw, hlen⟩ := readField_encodeCdr2Le g
  have hnum := g.gapList.numBits_le
  unfold maxBitmapBits at hnum
  have hgs : asI64 (ofLE (toLE 8 g.gapStart)) = g.gapStart := by
    rw [ofLE_toLE_of_lt (by omega), asI64_of_lt hstart]
  have hb : asI64 (ofLE (toLE 8 (asU64 g.gapList.base))) = g.gapList.base := by
    rw [asU64_of_nonneg hbase (by omega), ofLE_toLE_of_lt (by omega), asI64_of_lt (by omega),
      Int.toNat_of_nonneg hbase]
  have hnb : ofLE (toLE 4 g.gapList.numBits) = g.gapList.numBits := ofLE_toLE_of_lt (by omega)
  -- the words read at `28 + 4 * w` are the set's first `word_count` words
  have hwords : ((List.range g.gapList.wordCount).map fun w =>
      UInt32.ofNat (ofLE (field g.encodeCdr2Le (28 + 4 * w) 4))) =
        (List.range g.gapList.wordCount).map fun w =>
          UInt32.ofNat (g.gapList.bitmap.words.getD w 0) := by
    apply List.map_congr_left
    intro w hw'
    rw [List.mem_range] at hw'
    rw [hw w hw', ofLE_toLE_of_lt (by have := g.gapList.bitmap.fits w; omega)]
  have hraw := g.gapList.fromRaw_words hbase hcanon
  simp only [SequenceNumberSet.wordCount] at hwords hraw hlen
  simp only [decodeCdr2Le, h0, h1, h2, h3, h4, hgs, hb, hnb, hlen, hwords, hraw,
    ByteArr.ofList?_bytes]
  rw [if_neg (by omega)]
  simp [Nat.not_lt.mpr g.gapList.numBits_le]

end GapMsg

namespace GapMsg

/-! ### Lost ranges -/

theorem two_pow_64 : (2 : ℕ) ^ 64 = 18446744073709551616 := by norm_num

theorem rangeLen_of_lt {range : ℕ × ℕ} (hlt : range.1 < range.2) (hend : range.2 < 2 ^ 64) :
    rangeLen range = range.2 - range.1 := by
  unfold rangeLen
  rw [two_pow_64] at *
  omega

/-- On runs that end below `2 ^ 64` the wrapping length is the plain one. -/
theorem map_rangeLen_of_isRuns {S : ℕ → Prop} {rs : List (ℕ × ℕ)} (h : Bitmap.IsRuns S rs)
    (hend : ∀ r ∈ rs, r.2 < 2 ^ 64) : rs.map rangeLen = rs.map fun r => r.2 - r.1 :=
  List.map_congr_left fun r hr => rangeLen_of_lt (h.1 r hr) (hend r hr)

/-- Closing the run `[start, prev]`: its length comes out right unless the run holds every
`u64`, even when `prev + 1` wraps. -/
theorem rangeLen_close {start prev : ℕ} (hle : start ≤ prev) (hprev : prev < 2 ^ 64)
    (hspan : prev - start + 1 < 2 ^ 64) :
    rangeLen (start, (prev + 1) % 2 ^ 64) = prev + 1 - start := by
  unfold rangeLen
  dsimp only
  rw [two_pow_64] at *
  omega

theorem lostRangesLoop_snd_lt (start prev : ℕ) (l : List ℕ) :
    ∀ r ∈ lostRangesLoop start prev l, r.2 < 2 ^ 64 := by
  induction l generalizing start prev with
  | nil =>
    intro r hr
    rw [lostRangesLoop, List.mem_singleton] at hr
    rw [hr]
    exact Nat.mod_lt _ (by norm_num)
  | cons seq rest ih =>
    intro r hr
    rw [lostRangesLoop] at hr
    split_ifs at hr
    · exact ih start seq r hr
    · rcases List.mem_cons.mp hr with rfl | hr
      · exact Nat.mod_lt _ (by norm_num)
      · exact ih seq seq r hr

/-- Over sorted `u64` input, each sequence the loop reads adds one to the total length of the
ranges, whether it extends the run or starts a new one (a repeated value starts a new run over
itself). -/
theorem sum_lostRangesLoop (start prev : ℕ) (hle : start ≤ prev) (hprev : prev < 2 ^ 64)
    (l : List ℕ) (hsorted : (prev :: l).Pairwise (· ≤ ·)) (hl : ∀ x ∈ l, x < 2 ^ 64)
    (hspan : prev - start + l.length + 1 < 2 ^ 64) :
    ((lostRangesLoop start prev l).map rangeLen).sum = prev + 1 - start + l.length := by
  induction l generalizing start prev with
  | nil =>
    rw [lostRangesLoop, List.map_singleton, List.sum_singleton, List.length_nil, Nat.add_zero]
    rw [List.length_nil, Nat.add_zero] at hspan
    exact rangeLen_close hle hprev hspan
  | cons seq rest ih =>
    have hseq : prev ≤ seq := List.rel_of_pairwise_cons hsorted List.mem_cons_self
    have hseq' : seq < 2 ^ 64 := hl seq List.mem_cons_self
    have hrest : (seq :: rest).Pairwise (· ≤ ·) := hsorted.of_cons
    have hl' : ∀ x ∈ rest, x < 2 ^ 64 := fun x hx => hl x (List.mem_cons_of_mem _ hx)
    rw [List.length_cons] at hspan ⊢
    rw [lostRangesLoop]
    split_ifs with hnext
    · -- `seq` extends the run: it is `prev + 1`, which cannot have wrapped past `seq ≥ prev`
      have hsucc : seq = prev + 1 := by
        rw [two_pow_64] at hnext hseq'
        omega
      rw [ih start seq (by omega) hseq' hrest hl' (by omega)]
      omega
    · rw [List.map_cons, List.sum_cons, rangeLen_close hle hprev (by omega),
        ih seq seq le_rfl hseq' hrest hl' (by omega)]
      omega

/-- Over strictly increasing input below `u64::MAX` the loop lists the maximal runs of the run
being read and of the values still to come. -/
theorem lostRangesLoop_isRuns (start prev : ℕ) (hle : start ≤ prev) (l : List ℕ)
    (hsorted : (prev :: l).Pairwise (· < ·)) (hbound : ∀ x ∈ prev :: l, x + 1 < 2 ^ 64) :
    Bitmap.IsRuns (fun x => (start ≤ x ∧ x ≤ prev) ∨ x ∈ l) (lostRangesLoop start prev l) := by
  have hsucc : (prev + 1) % 2 ^ 64 = prev + 1 := Nat.mod_eq_of_lt (hbound prev List.mem_cons_self)
  induction l generalizing start prev with
  | nil =>
    rw [lostRangesLoop, hsucc]
    exact (Bitmap.isRuns_single (by omega : start < prev + 1)).congr fun x => by simp
  | cons seq rest ih =>
    have hseq : prev < seq := List.rel_of_pairwise_cons hsorted List.mem_cons_self
    have hrest : (seq :: rest).Pairwise (· < ·) := hsorted.of_cons
    have hbound' : ∀ x ∈ seq :: rest, x + 1 < 2 ^ 64 :=
      fun x hx => hbound x (List.mem_cons_of_mem _ hx)
    have hsucc' : (seq + 1) % 2 ^ 64 = seq + 1 := Nat.mod_eq_of_lt (hbound' seq List.mem_cons_self)
    rw [lostRangesLoop, hsucc]
    split_ifs with hnext
    · -- `seq` extends the run to `[start, seq]`
      refine (ih start seq (by omega) hrest hbound' hsucc').congr fun x => ?_
      by_cases hx : x ∈ rest
      · simp [hx]
      · simp [hx]
        omega
    · -- `seq` is past `prev + 1`: the run `[start, prev]` is closed before the runs from `seq`
      have hlater : ∀ x, (seq ≤ x ∧ x ≤ seq) ∨ x ∈ rest → prev + 1 < x := by
        rintro x (hx | hx)
        · omega
        · have := List.rel_of_pairwise_cons hrest hx
          omega
      refine ((ih seq seq le_rfl hrest hbound' hsucc').cons (by omega : start < prev + 1)
        hlater).congr fun x => ?_
      by_cases hx : x ∈ rest
      · simp [hx]
      · simp [hx]
        omega

/-- A range of at most 257 sequences below `2 ^ 63`: `contiguous` succeeds and its GAP lists
exactly the range. -/
theorem contiguous_spec (readerId writerId : EntityId) (start stop : ℕ) (hlt : start < stop)
    (hwindow : stop ≤ start + maxBitmapBits + 1) (hbase : start + 1 < 2 ^ 63) :
    ∃ msg, contiguous readerId writerId ⟨start, stop⟩ = some msg ∧
      msg.lostSequences = List.range' start (stop - start) := by
  obtain ⟨gapList, hset, hiter⟩ := SequenceNumberSet.fromSequences_iter (start + 1) hbase
    (List.range' (start + 1) (stop - (start + 1))) (List.pairwise_lt_range' _ Nat.one_pos)
    fun s hs => by
      rw [List.mem_range'_1] at hs
      omega
  refine ⟨⟨readerId, writerId, start, gapList⟩, ?_, ?_⟩
  · simp only [contiguous]
    rw [if_neg (by omega), asI64_of_lt hbase, hset]
    rfl
  · unfold lostSequences
    dsimp only
    rw [hiter, ← List.range'_succ, show stop - (start + 1) + 1 = stop - start by omega]
    exact List.Pairwise.insertionSort_eq ((List.pairwise_lt_range' _ Nat.one_pos).imp Nat.le_of_lt)

theorem length_lostSequences (g : GapMsg) :
    g.lostSequences.length = g.gapList.iter.length + 1 := by
  rw [lostSequences, List.length_insertionSort, List.length_cons]

theorem lostRanges_snd_lt (g : GapMsg) : ∀ r ∈ g.lostRanges, r.2 < 2 ^ 64 := by
  rw [lostRanges]
  split
  · simp
  · exact lostRangesLoop_snd_lt _ _ _

/-- A `gap_start` that is a `u64`: the ranges are as long together as `lost_sequences`,
repetitions included. -/
theorem sum_lostRanges (g : GapMsg) (hstart : g.gapStart < 2 ^ 64) :
    (g.lostRanges.map rangeLen).sum = g.gapList.iter.length + 1 := by
  have hperm : g.lostSequences.Perm (g.gapStart :: g.gapList.iter) := List.perm_insertionSort _ _
  have hsorted : g.lostSequences.Pairwise (· ≤ ·) := List.pairwise_insertionSort _ _
  -- every lost sequence is a `u64`: the set's members are reduced modulo `2 ^ 64`
  have hbound : ∀ x ∈ g.lostSequences, x < 2 ^ 64 := by
    intro x hx
    rcases List.mem_cons.mp (hperm.mem_iff.mp hx) with rfl | hx
    · exact hstart
    · obtain ⟨o, -, -, rfl⟩ := SequenceNumberSet.mem_iter.mp hx
      exact Nat.mod_lt _ (by norm_num)
  have hfew : g.gapList.iter.length ≤ maxBitmapBits :=
    (List.length_filterMap_le _ _).trans (by simpa using g.gapList.numBits_le)
  have hlen := length_lostSequences g
  rw [← length_lostSequences, lostRanges]
  split
  · rename_i hls
    rw [hls] at hlen
    simp at hlen
  · rename_i first rest hls
    rw [hls] at hsorted hbound hlen
    rw [sum_lostRangesLoop first first le_rfl (hbound first List.mem_cons_self) rest hsorted
      (fun x hx => hbound x (List.mem_cons_of_mem _ hx))
      (by rw [List.length_cons] at hlen; unfold maxBitmapBits at hfew; rw [two_pow_64]; omega),
      hls, List.length_cons]
    omega

/-- When `gap_start` is not also a member of the set and no lost sequence is `u64::MAX`, the
ranges are the maximal runs of the lost sequences. -/
theorem lostRanges_isRuns (g : GapMsg) (hiter : g.gapList.iter.Pairwise (· < ·))
    (hfresh : g.gapStart ∉ g.gapList.iter)
    (hbound : ∀ x ∈ g.gapStart :: g.gapList.iter, x + 1 < 2 ^ 64) :
    Bitmap.IsRuns (fun x => x = g.gapStart ∨ x ∈ g.gapList.iter) g.lostRanges := by
  have hperm : g.lostSequences.Perm (g.gapStart :: g.gapList.iter) := List.perm_insertionSort _ _
  have hnodup : g.lostSequences.Nodup :=
    hperm.nodup_iff.mpr (List.nodup_cons.mpr ⟨hfresh, hiter.imp ne_of_lt⟩)
  -- sorted and without repetitions: strictly increasing
  have hsorted : g.lostSequences.Pairwise (· < ·) :=
    ((List.pairwise_insertionSort _ _).and hnodup).imp fun h => lt_of_le_of_ne h.1 h.2
  rw [lostRanges]
  split
  · rename_i hls
    rw [hls] at hperm
    exact absurd hperm.length_eq (by simp)
  · rename_i first rest hls
    rw [hls] at hsorted hperm
    refine (lostRangesLoop_isRuns first first le_rfl rest hsorted
      fun x hx => hbound x (hperm.mem_iff.mp hx)).congr fun x => ?_
    rw [← List.mem_cons, ← hperm.mem_iff, List.mem_cons]
    by_cases hx : x ∈ rest
    · simp [hx]
    · simp [hx]
      omega

end GapMsg

/-- A GAP built from any list of sequence numbers inside the window `[base, base + 256)`
carries a set that yields their distinct values in increasing order, and survives encoding and
decoding; a sequence outside the window makes `from_sequences` fail. -/
theorem gap_set_round_trip (readerId writerId : EntityId) (gapStart : ℕ)
    (hstart : gapStart < 2 ^ 63) (base : ℕ) (hbase : base < 2 ^ 63) :
    (∀ S : List ℕ, (∀ s ∈ S, base ≤ s ∧ s < base + maxBitmapBits) →
      ∃ set, SequenceNumberSet.fromSequences base S = some set ∧ set.iter.Pairwise (· < ·) ∧
        (∀ x, x ∈ set.iter ↔ x ∈ S) ∧
        GapMsg.decodeCdr2Le (GapMsg.encodeCdr2Le ⟨readerId, writerId, gapStart, set⟩) =
          some ⟨readerId, writerId, gapStart, set⟩) ∧
    ∀ S : List ℕ, (∃ s ∈ S, ¬(base ≤ s ∧ s < base + maxBitmapBits)) →
      SequenceNumberSet.fromSequences base S = none := by
  refine ⟨fun S hin => ?_, fun S hout => SequenceNumberSet.fromSequences_eq_none base S hout⟩
  obtain ⟨set, hset, hbase', hpair, hmem, hcanon⟩ :=
    SequenceNumberSet.fromSequences_spec base hbase S hin
  refine ⟨set, hset, hpair, hmem, GapMsg.decodeCdr2Le_encodeCdr2Le _ hstart ?_ ?_ hcanon⟩
  · rw [hbase']
    exact Int.natCast_nonneg base
  · rw [hbase']
    exact_mod_cast hbase

theorem gap_set_round_trip_repeated :
    (3 : ℕ) < 2 ^ 63 ∧ (5 : ℕ) < 2 ^ 63 ∧
      SequenceNumberSet.fromSequences 5 [7, 261] = none ∧
      ∃ set, SequenceNumberSet.fromSequences 5 [7, 5, 7] = some set ∧ set.iter.Pairwise (· < ·) ∧
        (∀ x, x ∈ set.iter ↔ x ∈ [7, 5, 7]) ∧
        GapMsg.decodeCdr2Le (GapMsg.encodeCdr2Le ⟨entityIdSpdpWriter, entityIdSpdpWriter, 3, set⟩) =
          some ⟨entityIdSpdpWriter, entityIdSpdpWriter, 3, set⟩ :=
  ⟨by norm_num, by norm_num,
    (gap_set_round_trip entityIdSpdpWriter entityIdSpdpWriter 3 (by norm_num) 5 (by norm_num)).2
      [7, 261] ⟨261, by simp, by simp [maxBitmapBits]⟩,
    (gap_set_round_trip entityIdSpdpWriter entityIdSpdpWriter 3 (by norm_num) 5 (by norm_num)).1
      [7, 5, 7] (by simp [maxBitmapBits])⟩

end Hdds.Reliability

namespace Hdds.Reliability
open Wire Hdds.Discovery
set_option autoImplicit false

/-! ## INFO_TS

`InfoTsMsg` holds a `u64` count of nanoseconds since the UNIX epoch; on the wire it is RTPS
time, whole seconds as an `i32` and a `u32` binary fraction of a second. `to_rtps` and
`from_rtps` both round down, so a timestamp comes back at most one nanosecond early.
-/

/-- `x as u32` for an `i32` value `x`. -/
def asU32 (x : ℤ) : ℕ := (x % 2 ^ 32).toNat

theorem asU64_lt (x : ℤ) : asU64 x < 2 ^ 64 := by
  unfold asU64
  omega

theorem asI32_asU32 {x : ℤ} (h0 : 0 ≤ x) (h : x < 2 ^ 31) : asI32 (asU32 x) = x := by
  unfold asU32
  rw [Int.emod_eq_of_lt h0 (by omega), asI32_of_lt (by omega), Int.toNat_of_nonneg h0]

/-- `InfoTsMsg`. -/
structure InfoTsMsg where
  nanos : ℕ
  nanos_lt : nanos < 2 ^ 64

namespace InfoTsMsg

/-- `from_rtps`. The `i64` and `u64` products cannot overflow (`fromRtps_no_overflow`); the
final `as u64` wraps a negative sum. -/
def fromRtps (seconds : ℤ) (fraction : ℕ) : InfoTsMsg :=
  let nanosFromSecs : ℤ := seconds * 1000000000
  let nanosFromFraction : ℕ := fraction * 1000000000 / 2 ^ 32
  ⟨asU64 (nanosFromSecs + nanosFromFraction), asU64_lt _⟩

/-- `to_rtps`: whole seconds past `i32::MAX` clamp to it, and `<< 32` drops the bits past the
64th. Both `expect`s succeed (`toRtps_snd_lt`). -/
def toRtps (t : InfoTsMsg) : ℤ × ℕ :=
  let secondsTotal := t.nanos / 1000000000
  let seconds : ℤ := if secondsTotal ≤ 2 ^ 31 - 1 then secondsTotal else 2 ^ 31 - 1
  let nanosRemainder := t.nanos % 1000000000
  (seconds, nanosRemainder * 2 ^ 32 % 2 ^ 64 / 1000000000)

/-- `encode_cdr2_le`. -/
def encodeCdr2Le (t : InfoTsMsg) : List UInt8 :=
  toLE 4 (asU32 t.toRtps.1) ++ toLE 4 t.toRtps.2

/-- `decode_cdr2_le`. -/
def decodeCdr2Le (buf : List UInt8) : Option InfoTsMsg :=
  if buf.length < 8 then none
  else some (fromRtps (asI32 (ofLE (field buf 0 4))) (ofLE (field buf 4 4)))

/-- The shifted remainder stays below `2 ^ 64`, so `<< 32` loses nothing. -/
theorem remainder_shift_lt (t : InfoTsMsg) : t.nanos % 10 ^ 9 * 2 ^ 32 < 2 ^ 64 := by
  omega

theorem toRtps_eq (t : InfoTsMsg) :
    t.toRtps = (((min (t.nanos / 10 ^ 9) (2 ^ 31 - 1) : ℕ) : ℤ),
      t.nanos % 10 ^ 9 * 2 ^ 32 / 10 ^ 9) := by
  have hshift := remainder_shift_lt t
  simp only [toRtps, Prod.mk.injEq]
  -- the clamp of `i32::try_from` is a `min`, and `hshift` removes the `% 2 ^ 64` of `<< 32`
  refine ⟨?_, by omega⟩
  split_ifs <;> omega

theorem toRtps_snd_lt (t : InfoTsMsg) : t.toRtps.2 < 2 ^ 32 := by
  rw [toRtps_eq]
  omega

/-- The `i64` product and sum of `from_rtps` stay in range for every `i32` and `u32`, and so
does the `u64` product. -/
theorem fromRtps_no_overflow {seconds : ℤ} {fraction : ℕ} (hs₀ : -2 ^ 31 ≤ seconds)
    (hs₁ : seconds < 2 ^ 31) (hf : fraction < 2 ^ 32) :
    fraction * 10 ^ 9 < 2 ^ 64 ∧ -2 ^ 63 ≤ seconds * 10 ^ 9 + (fraction * 10 ^ 9 / 2 ^ 32 : ℕ) ∧
      seconds * 10 ^ 9 + (fraction * 10 ^ 9 / 2 ^ 32 : ℕ) < 2 ^ 63 := by
  refine ⟨by omega, by omega, by omega⟩

theorem nanos_fromRtps {seconds fraction : ℕ} (hs : seconds < 2 ^ 31) (hf : fraction < 2 ^ 32) :
    (fromRtps seconds fraction).nanos = seconds * 10 ^ 9 + fraction * 10 ^ 9 / 2 ^ 32 := by
  simp only [fromRtps]
  rw [asU64_of_nonneg (by positivity) (by omega)]
  omega

/-- A remainder `r < 10 ^ 9` made a 32-bit fraction and back loses at most one nanosecond. -/
theorem fraction_round_trip {r : ℕ} (h : r < 10 ^ 9) :
    r * 2 ^ 32 / 10 ^ 9 * 10 ^ 9 / 2 ^ 32 = r ∨ r * 2 ^ 32 / 10 ^ 9 * 10 ^ 9 / 2 ^ 32 = r - 1 := by
  set f := r * 2 ^ 32 / 10 ^ 9 with hf
  -- `f * 10 ^ 9` lies below `r * 2 ^ 32` by less than `10 ^ 9`, which is less than `2 ^ 32`
  have hle : f * 10 ^ 9 ≤ r * 2 ^ 32 := Nat.div_mul_le_self _ _
  have hlt : r * 2 ^ 32 < 10 ^ 9 * (f + 1) := Nat.lt_mul_div_succ _ (by norm_num)
  omega

theorem nanos_fromRtps_toRtps (t : InfoTsMsg) (h : t.nanos < 2 ^ 31 * 10 ^ 9) :
    (fromRtps t.toRtps.1 t.toRtps.2).nanos = t.nanos ∨
      (fromRtps t.toRtps.1 t.toRtps.2).nanos = t.nanos - 1 := by
  have hsecs : t.nanos / 10 ^ 9 < 2 ^ 31 := by omega
  have hfrac := toRtps_snd_lt t
  rw [toRtps_eq] at hfrac ⊢
  rw [Nat.min_eq_left (by omega), nanos_fromRtps hsecs hfrac]
  -- the whole seconds come back exactly; only the remainder is rounded
  have hr := fraction_round_trip (Nat.mod_lt t.nanos (by norm_num : 0 < 10 ^ 9))
  have hdiv := Nat.div_add_mod' t.nanos (10 ^ 9)
  generalize t.nanos % 10 ^ 9 * 2 ^ 32 / 10 ^ 9 * 10 ^ 9 / 2 ^ 32 = back at hr ⊢
  generalize t.nanos / 10 ^ 9 = q at hdiv ⊢
  generalize t.nanos % 10 ^ 9 = r at hdiv hr
  omega

/-- Whatever `to_rtps` gives, `encode_cdr2_le` writes and `decode_cdr2_le` reads back. -/
theorem decodeCdr2Le_encodeCdr2Le (t : InfoTsMsg) :
    decodeCdr2Le t.encodeCdr2Le = some (fromRtps t.toRtps.1 t.toRtps.2) := by
  have hsecs : 0 ≤ t.toRtps.1 ∧ t.toRtps.1 < 2 ^ 31 := by
    rw [toRtps_eq]
    omega
  have hfrac := toRtps_snd_lt t
  have hself₀ := field_self (toLE 4 (asU32 t.toRtps.1))
  have hself₁ := field_append_right (toLE 4 (asU32 t.toRtps.1)) (toLE 4 t.toRtps.2) 0 4
  rw [length_toLE] at hself₀ hself₁
  have h₀ : field t.encodeCdr2Le 0 4 = toLE 4 (asU32 t.toRtps.1) := by
    rw [encodeCdr2Le, field_append_left _ _ (by simp), hself₀]
  have h₁ : field t.encodeCdr2Le 4 4 = toLE 4 t.toRtps.2 := by
    have hself := field_self (toLE 4 t.toRtps.2)
    rw [length_toLE] at hself
    rw [encodeCdr2Le, hself₁, hself]
  have hlen : t.encodeCdr2Le.length = 8 := by simp [encodeCdr2Le, -toLE_succ]
  have hsecs' : asU32 t.toRtps.1 < 256 ^ 4 := by
    unfold asU32
    omega
  rw [decodeCdr2Le, if_neg (by omega), h₀, h₁, ofLE_toLE_of_lt hsecs',
    ofLE_toLE_of_lt (by omega), asI32_asU32 hsecs.1 hsecs.2]

end InfoTsMsg

/-- For every timestamp below `2 ^ 31` seconds, `to_rtps` then `from_rtps`, directly or through
the CDR bytes, gives it back or one nanosecond earlier, and no intermediate overflows. -/
theorem info_ts_round_trip_within_one_nanosecond (t : InfoTsMsg)
    (h : t.nanos < 2 ^ 31 * 10 ^ 9) :
    ((InfoTsMsg.fromRtps t.toRtps.1 t.toRtps.2).nanos = t.nanos ∨
        (InfoTsMsg.fromRtps t.toRtps.1 t.toRtps.2).nanos = t.nanos - 1) ∧
      (∃ t', InfoTsMsg.decodeCdr2Le t.encodeCdr2Le = some t' ∧
        (t'.nanos = t.nanos ∨ t'.nanos = t.nanos - 1)) ∧
      t.nanos % 10 ^ 9 * 2 ^ 32 < 2 ^ 64 ∧ t.toRtps.2 < 2 ^ 32 ∧ t.toRtps.2 * 10 ^ 9 < 2 ^ 64 := by
  have hfrac := t.toRtps_snd_lt
  refine ⟨t.nanos_fromRtps_toRtps h,
    ⟨_, t.decodeCdr2Le_encodeCdr2Le, t.nanos_fromRtps_toRtps h⟩, t.remainder_shift_lt, hfrac, ?_⟩
  omega

theorem info_ts_round_trip_at_one_second :
    (1000000001 : ℕ) < 2 ^ 31 * 10 ^ 9 ∧
      (let t : InfoTsMsg := ⟨1000000001, by norm_num⟩;
        ((InfoTsMsg.fromRtps t.toRtps.1 t.toRtps.2).nanos = t.nanos ∨
            (InfoTsMsg.fromRtps t.toRtps.1 t.toRtps.2).nanos = t.nanos - 1) ∧
          (∃ t', InfoTsMsg.decodeCdr2Le t.encodeCdr2Le = some t' ∧
            (t'.nanos = t.nanos ∨ t'.nanos = t.nanos - 1)) ∧
          t.nanos % 10 ^ 9 * 2 ^ 32 < 2 ^ 64 ∧ t.toRtps.2 < 2 ^ 32 ∧
          t.toRtps.2 * 10 ^ 9 < 2 ^ 64) :=
  ⟨by norm_num, info_ts_round_trip_within_one_nanosecond ⟨1000000001, by norm_num⟩ (by norm_num)⟩

/-- The nanosecond is lost: one second and one nanosecond come back as one second. -/
example : (InfoTsMsg.fromRtps (InfoTsMsg.toRtps ⟨1000000001, by norm_num⟩).1
    (InfoTsMsg.toRtps ⟨1000000001, by norm_num⟩).2).nanos = 1000000000 := by
  decide +kernel

end Hdds.Reliability
