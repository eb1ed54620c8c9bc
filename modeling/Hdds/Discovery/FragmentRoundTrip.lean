import Hdds.Discovery.FragmentBuffer
import Hdds.Rtps.Builder
import Hdds.Foundations.Machine

/-! # DATA_FRAG round trip

The writer cuts a large payload into DATA_FRAG packets (`build_data_frag_packets`); the reader
classifies each packet with the DATA_FRAG classifier, cuts the fragment at the payload offset
the classifier gives a DATA_FRAG, and hands it to `FragmentBuffer::insert_fragment`, as
`route_data_frag_packet` does.

* `readField_dataFrag` reads every field of a built packet back; `classifyDataFrag_built`
  turns that into the metadata the classifier reports.
* `feedDataFrag_packet` is one packet of a payload arriving: it is fragment `i + 1` of `n`,
  carrying the `i`-th piece of the payload.
* `receiveFragments_holds` is a run that misses a fragment: it outputs nothing and leaves the
  buffer holding the fragments delivered so far.
-/

namespace Hdds.Discovery
open Wire Hdds.Rtps
set_option autoImplicit false

/-- One DATA_FRAG datagram reaching the buffer at time `now`: the GUID prefix of the header,
the DATA_FRAG classifier on the submessage after it, and the bytes from the payload offset of
a DATA_FRAG, dropped when that offset is past the end (`route_data_frag_packet`). -/
def feedDataFrag (b : FragmentBuffer) (now : ℕ) (pkt : List UInt8) :
    FragmentBuffer × Option (List UInt8) :=
  match validateAndExtractHeader pkt with
  | none => (b, none)
  | some header =>
    let flags := pkt.getD 21 0
    match (classifyDataFrag pkt 20 flags header.guidPrefix none).2.2 with
    | none => (b, none)
    | some fragMeta =>
      let offset := calculatePayloadOffset pkt 20 flags .DataFrag
      if offset < pkt.length then
        b.insertFragment now fragMeta.writerGuid fragMeta.seqNum fragMeta.fragNum
          fragMeta.totalFrags (pkt.drop offset)
      else (b, none)

/-- The receiver fed the deliveries `(i, now)`, packet `i` of `packets` arriving at `now`, with
one output per delivery. -/
def receiveFragments (packets : List (List UInt8)) (b : FragmentBuffer)
    (deliveries : List (ℕ × ℕ)) : FragmentBuffer × List (Option (List UInt8)) :=
  Machine.run (fun b d => let r := feedDataFrag b d.2 (packets.getD d.1 []); (r.1, [r.2]))
    b deliveries

/-! ## Reading a built packet -/

theorem readField_dataFrag (ctx : RtpsEndpointContext) (sequence fsn fis fsz dsz : ℕ)
    (data : List UInt8) :
    let pkt := buildSingleDataFragPacket ctx sequence fsn fis fsz dsz data
    field pkt 0 4 = rtpsMagic ∧ field pkt 8 12 = ctx.guidPrefix.bytes ∧
    field pkt 32 4 = ctx.writerEntityId.bytes ∧
    field pkt 36 4 = toLE 4 (sequence >>> 32) ∧ field pkt 40 4 = toLE 4 sequence ∧
    field pkt 44 4 = toLE 4 fsn ∧ field pkt 48 2 = toLE 2 fis ∧ field pkt 50 2 = toLE 2 fsz ∧
    field pkt 52 4 = toLE 4 dsz ∧ pkt.drop 56 = data ∧ pkt.getD 21 0 = 0x05 ∧
    pkt.length = 56 + data.length := by
  dsimp only
  rw [buildSingleDataFragPacket_eq]
  set blocks := [rtpsMagic, rtpsVersion, hddsVendorId, ctx.guidPrefix.bytes, [0x16, 0x05],
        toLE 2 (32 + data.length), toLE 2 0, toLE 2 16, ctx.readerEntityId.bytes,
        ctx.writerEntityId.bytes, toLE 4 (sequence >>> 32), toLE 4 sequence,
        toLE 4 fsn, toLE 2 fis, toLE 2 fsz, toLE 4 dsz, data] with hblocks
  -- each field is one block of the concatenation
  have hread := field_flatten blocks
  refine ⟨?_, ?_, ?_, ?_, ?_, ?_, ?_, ?_, ?_, ?_, ?_, ?_⟩
  · simpa [hblocks] using hread 0 (by simp [hblocks])
  · simpa [hblocks, ByteArr.length_eq] using hread 3 (by simp [hblocks])
  · simpa [hblocks, ByteArr.length_eq] using hread 9 (by simp [hblocks])
  · simpa [hblocks, ByteArr.length_eq] using hread 10 (by simp [hblocks])
  · simpa [hblocks, ByteArr.length_eq] using hread 11 (by simp [hblocks])
  · simpa [hblocks, ByteArr.length_eq] using hread 12 (by simp [hblocks])
  · simpa [hblocks, ByteArr.length_eq] using hread 13 (by simp [hblocks])
  · simpa [hblocks, ByteArr.length_eq] using hread 14 (by simp [hblocks])
  · simpa [hblocks, ByteArr.length_eq] using hread 15 (by simp [hblocks])
  · have hsplit : blocks.flatten = (blocks.take 16).flatten ++ data := by simp [hblocks]
    have hlen : (blocks.take 16).flatten.length = 56 := by simp [hblocks, ByteArr.length_eq]
    rw [hsplit, List.drop_left' hlen]
  · have hsplit : blocks.flatten =
        (blocks.take 4).flatten ++ ([0x16, 0x05] ++ (blocks.drop 5).flatten) := by simp [hblocks]
    have hlen : (blocks.take 4).flatten.length = 20 := by simp [hblocks, ByteArr.length_eq]
    rw [hsplit, show 21 = (blocks.take 4).flatten.length + 1 by rw [hlen], getD_append_right]
    rfl
  · simp [hblocks, ByteArr.length_eq]
    omega

/-- The sequence number read back as `(high << 32) | low`. -/
theorem seqNum_halves (sequence : ℕ) (h : sequence < 2 ^ 64) :
    ofLE (toLE 4 (sequence >>> 32)) <<< 32 ||| ofLE (toLE 4 sequence) = sequence := by
  have hhigh : sequence >>> 32 < 256 ^ 4 := by
    rw [Nat.shiftRight_eq_div_pow]
    omega
  rw [ofLE_toLE_of_lt hhigh, ofLE_toLE, show (256 : ℕ) ^ 4 = 2 ^ 32 by norm_num,
    ← Nat.shiftLeft_add_eq_or_of_lt (Nat.mod_lt _ (by norm_num)), Nat.shiftLeft_eq,
    Nat.shiftRight_eq_div_pow]
  exact Nat.div_add_mod' sequence (2 ^ 32)

/-- What the DATA_FRAG classifier reports for a built packet: the writer's GUID, and the
fields as written when they fit their widths. -/
theorem classifyDataFrag_built (ctx : RtpsEndpointContext) (sequence fsn fis fsz dsz : ℕ)
    (data : List UInt8) (fragmentMetadata : Option FragmentMetadata) (hseq : sequence < 2 ^ 64)
    (hfsn : fsn < 2 ^ 32) (hfis : fis < 2 ^ 16) (hfsz : fsz < 2 ^ 16) (hdsz : dsz < 2 ^ 32) :
    (classifyDataFrag (buildSingleDataFragPacket ctx sequence fsn fis fsz dsz data) 20 0x05
        ctx.guidPrefix fragmentMetadata).2.2 =
      some ⟨⟨ctx.guidPrefix, ctx.writerEntityId⟩, sequence, fsn,
        if fsz > 0 then (dsz + fsz - 1) / fsz % 2 ^ 16 else fis⟩ := by
  obtain ⟨-, -, hw, hhigh, hlow, hfsn', hfis', hfsz', hdsz', -, -, hlen⟩ :=
    readField_dataFrag ctx sequence fsn fis fsz dsz data
  have hle : (0x05 : UInt8) &&& 0x01 != 0 := by decide
  have hentity : (⟨toLE 4 (ofLE ctx.writerEntityId.bytes), length_toLE 4 _⟩ : EntityId) =
      ctx.writerEntityId := by
    apply ByteArr.ext_bytes
    have h := toLE_ofLE ctx.writerEntityId.bytes
    rwa [ctx.writerEntityId.length_eq] at h
  unfold classifyDataFrag
  rw [if_pos (by omega), if_pos (by omega)]
  simp only [readField, hle, ofEndian_true, if_true, hw, hhigh, hlow, hfsn', hfis', hfsz', hdsz',
    hentity, seqNum_halves sequence hseq,
    ofLE_toLE_of_lt (show fsn < 256 ^ 4 by omega), ofLE_toLE_of_lt (show fis < 256 ^ 2 by omega),
    ofLE_toLE_of_lt (show fsz < 256 ^ 2 by omega), ofLE_toLE_of_lt (show dsz < 256 ^ 4 by omega)]

theorem validateAndExtractHeader_built (ctx : RtpsEndpointContext) (sequence fsn fis fsz dsz : ℕ)
    (data : List UInt8) :
    (validateAndExtractHeader (buildSingleDataFragPacket ctx sequence fsn fis fsz dsz data)).map
      RtpsHeader.guidPrefix = some ctx.guidPrefix := by
  obtain ⟨hmagic, hprefix, -, -, -, -, -, -, -, -, -, hlen⟩ :=
    readField_dataFrag ctx sequence fsn fis fsz dsz data
  unfold validateAndExtractHeader
  rw [dif_pos (by omega), hmagic, if_neg (by simp)]
  simp only [Option.map_some, Option.some.injEq]
  exact ByteArr.ext_bytes hprefix

theorem calculatePayloadOffset_dataFrag (buf : List UInt8) (offset : ℕ) (flags : UInt8)
    (h : offset + 8 ≤ buf.length) : calculatePayloadOffset buf offset flags .DataFrag = offset + 36 := by
  simp [calculatePayloadOffset, h]

/-! ## One packet of a payload -/

section Packets

variable (ctx : RtpsEndpointContext) (sequence : ℕ) (payload : List UInt8) (fragmentSize : ℕ)

/-- The number of fragments the writer cuts the payload into. -/
def fragmentCount : ℕ := (payload.length + fragmentSize - 1) / fragmentSize

/-- Fragment `j` (numbered from 1) of the payload. -/
def fragmentPiece (j : ℕ) : List UInt8 := field payload ((j - 1) * fragmentSize) fragmentSize

/-- The GUID and sequence number every fragment of the payload is filed under. -/
def fragmentKey : Guid × ℕ := (⟨ctx.guidPrefix, ctx.writerEntityId⟩, sequence)

theorem fragmentCount_mul_ge (hfs : 0 < fragmentSize) :
    payload.length ≤ fragmentCount payload fragmentSize * fragmentSize := by
  have := @Nat.lt_div_mul_add (payload.length + fragmentSize - 1) fragmentSize hfs
  unfold fragmentCount
  omega

theorem mul_lt_of_lt_fragmentCount {i : ℕ} (hfs : 0 < fragmentSize)
    (hi : i < fragmentCount payload fragmentSize) : i * fragmentSize < payload.length := by
  have hle := (Nat.le_div_iff_mul_le hfs).mp (Nat.succ_le_of_lt hi)
  rw [Nat.succ_mul] at hle
  omega

theorem fragmentPiece_ne_nil {i : ℕ} (hfs : 0 < fragmentSize)
    (hi : i < fragmentCount payload fragmentSize) :
    fragmentPiece payload fragmentSize (i + 1) ≠ [] := by
  have hlt := mul_lt_of_lt_fragmentCount payload fragmentSize hfs hi
  simp [fragmentPiece, field, hfs.ne', hlt]

/-- Every packet of the payload reaches the buffer as its fragment: number `i + 1` of
`fragmentCount`, filed under the writer's GUID and the sequence number. -/
theorem feedDataFrag_packet (b : FragmentBuffer) (now i : ℕ) (hseq : sequence < 2 ^ 64)
    (hbig : defaultMaxUnfragmentedSize < payload.length) (hfs : 0 < fragmentSize)
    (hfs' : fragmentSize < 2 ^ 16) (hcount : fragmentCount payload fragmentSize < 2 ^ 16)
    (hi : i < fragmentCount payload fragmentSize) :
    feedDataFrag b now ((buildDataFragPackets ctx sequence payload fragmentSize).getD i []) =
      b.insertFragment now (fragmentKey ctx sequence).1 (fragmentKey ctx sequence).2 (i + 1)
        (fragmentCount payload fragmentSize) (fragmentPiece payload fragmentSize (i + 1)) := by
  have hi' : i < (buildDataFragPackets ctx sequence payload fragmentSize).length := by
    rw [length_buildDataFragPackets ctx sequence payload fragmentSize hbig]
    exact hi
  -- the payload fits the `u32` of `dataSize`
  have hsize : payload.length < 2 ^ 32 :=
    calc payload.length ≤ fragmentCount payload fragmentSize * fragmentSize :=
          fragmentCount_mul_ge payload fragmentSize hfs
      _ < 2 ^ 16 * 2 ^ 16 := Nat.mul_lt_mul'' hcount hfs'
      _ = 2 ^ 32 := by norm_num
  set piece := fragmentPiece payload fragmentSize (i + 1) with hpiece
  have hpacket : (buildDataFragPackets ctx sequence payload fragmentSize).getD i [] =
      buildSingleDataFragPacket ctx sequence (i + 1) 1 fragmentSize payload.length piece := by
    rw [List.getD_eq_getElem _ _ hi', getElem_buildDataFragPackets,
      show min (i + 1) (2 ^ 32 - 1) = i + 1 by omega,
      show min fragmentSize (2 ^ 16 - 1) = fragmentSize by omega,
      show min payload.length (2 ^ 32 - 1) = payload.length by omega]
    simp [hpiece, fragmentPiece]
  obtain ⟨-, -, -, -, -, -, -, -, -, hdrop, hflags, hlen⟩ :=
    readField_dataFrag ctx sequence (i + 1) 1 fragmentSize payload.length piece
  obtain ⟨header, hheader, hprefix⟩ := Option.map_eq_some_iff.mp
    (validateAndExtractHeader_built ctx sequence (i + 1) 1 fragmentSize payload.length piece)
  have hmeta := classifyDataFrag_built ctx sequence (i + 1) 1 fragmentSize payload.length piece
    none hseq (by omega) (by norm_num) hfs' hsize
  have hnonempty : 0 < piece.length :=
    List.length_pos_of_ne_nil (fragmentPiece_ne_nil payload fragmentSize hfs hi)
  rw [hpacket]
  unfold feedDataFrag
  rw [hheader]
  dsimp only
  rw [hflags, hprefix, hmeta]
  dsimp only
  rw [calculatePayloadOffset_dataFrag _ _ _ (by omega), if_pos (by omega), hdrop, if_pos hfs,
    Nat.mod_eq_of_lt (show (payload.length + fragmentSize - 1) / fragmentSize < 2 ^ 16 from hcount)]
  rfl

/-- The pieces of the payload, joined in fragment order, are the payload. -/
theorem flatMap_fragmentPiece (hfs : 0 < fragmentSize) :
    (List.range' 1 (fragmentCount payload fragmentSize)).flatMap (fragmentPiece payload fragmentSize) =
      payload := by
  rw [List.range'_eq_map_range, List.flatMap_map]
  have hpiece : (fun i => fragmentPiece payload fragmentSize (1 + i)) =
      fun i => field payload (i * fragmentSize) fragmentSize := by
    funext i
    simp [fragmentPiece]
  rw [hpiece]
  exact flatMap_field_chunks fragmentSize _ payload (fragmentCount_mul_ge payload fragmentSize hfs)

/-- A run whose deliveries leave a fragment missing outputs nothing and leaves the buffer
holding the fragments delivered so far. The induction is on the deliveries; `HoldsPart.insert`
is the step. -/
theorem receiveFragments_holds (hseq : sequence < 2 ^ 64)
    (hbig : defaultMaxUnfragmentedSize < payload.length) (hfs : 0 < fragmentSize)
    (hfs' : fragmentSize < 2 ^ 16) (hcount : fragmentCount payload fragmentSize < 2 ^ 16)
    (deliveries : List (ℕ × ℕ)) (b : FragmentBuffer) (S : Finset ℕ)
    (h : FragmentBuffer.HoldsPart (fragmentKey ctx sequence) (fragmentCount payload fragmentSize)
      (fragmentPiece payload fragmentSize) b S)
    (hS : S ⊆ Finset.Icc 1 (fragmentCount payload fragmentSize))
    (hd : ∀ d ∈ deliveries, d.1 < fragmentCount payload fragmentSize)
    (hmiss : ¬ Finset.Icc 1 (fragmentCount payload fragmentSize) ⊆
      S ∪ (deliveries.map (·.1 + 1)).toFinset) :
    let r := receiveFragments (buildDataFragPackets ctx sequence payload fragmentSize) b deliveries
    r.2 = List.replicate deliveries.length none ∧
      FragmentBuffer.HoldsPart (fragmentKey ctx sequence) (fragmentCount payload fragmentSize)
        (fragmentPiece payload fragmentSize) r.1 (S ∪ (deliveries.map (·.1 + 1)).toFinset) := by
  induction deliveries generalizing b S with
  | nil => simpa [receiveFragments] using h
  | cons d ds ih =>
    have hd₀ := hd d (by simp)
    have hj : d.1 + 1 ∈ Finset.Icc 1 (fragmentCount payload fragmentSize) := by
      simp only [Finset.mem_Icc]
      omega
    have hstep := h.insert _ _ _ hS d.2 (d.1 + 1) hj
    have hset : S ∪ ((d :: ds).map (·.1 + 1)).toFinset =
        insert (d.1 + 1) S ∪ (ds.map (·.1 + 1)).toFinset := by
      simp [Finset.union_insert, Finset.insert_union]
    rw [hset] at hmiss ⊢
    -- the fragment does not complete the message, since one is still missing after the run
    have hpart : insert (d.1 + 1) S ≠ Finset.Icc 1 (fragmentCount payload fragmentSize) := by
      intro hfull
      rw [← hfull] at hmiss
      exact hmiss Finset.subset_union_left
    rw [if_neg hpart] at hstep
    obtain ⟨hnone, hholds⟩ := hstep
    rw [← feedDataFrag_packet ctx sequence payload fragmentSize b d.2 d.1 hseq hbig hfs hfs' hcount
      hd₀] at hnone hholds
    obtain ⟨hout, hrest⟩ := ih _ _ hholds (Finset.insert_subset hj hS)
      (fun d' hd' => hd d' (by simp [hd'])) hmiss
    refine ⟨?_, hrest⟩
    simp only [receiveFragments, Machine.run_cons] at hout ⊢
    rw [hout, hnone]
    simp [List.replicate_succ]

end Packets

theorem data_frag_round_trip (ctx : RtpsEndpointContext) (sequence : ℕ) (payload : List UInt8)
    (maxPending timeoutMs : ℕ) (pre : List (ℕ × ℕ)) (last : ℕ × ℕ)
    (hseq : sequence < 2 ^ 63) (hbig : defaultMaxUnfragmentedSize < payload.length)
    (hcount : (payload.length + 1024 - 1) / 1024 ≤ 65535) (hroom : 0 < maxPending)
    (hpre : ∀ d ∈ pre, d.1 < (buildDataFragPackets ctx sequence payload 1024).length)
    (hlast : last.1 < (buildDataFragPackets ctx sequence payload 1024).length)
    (hmissing : ∃ i < (buildDataFragPackets ctx sequence payload 1024).length, ∀ d ∈ pre, d.1 ≠ i)
    (hcover : ∀ i < (buildDataFragPackets ctx sequence payload 1024).length,
      ∃ d ∈ pre ++ [last], d.1 = i) :
    (receiveFragments (buildDataFragPackets ctx sequence payload 1024)
        (FragmentBuffer.new maxPending timeoutMs) (pre ++ [last])).2 =
      List.replicate pre.length none ++ [some payload] := by
  have hlen := length_buildDataFragPackets ctx sequence payload 1024 hbig
  change _ = fragmentCount payload 1024 at hlen
  rw [hlen] at hpre hlast hmissing hcover
  have hcount' : fragmentCount payload 1024 < 2 ^ 16 := by unfold fragmentCount; omega
  have hseq' : sequence < 2 ^ 64 := by omega
  -- every fragment but one has not come in after `pre`
  have hmiss : ¬ Finset.Icc 1 (fragmentCount payload 1024) ⊆
      ∅ ∪ (pre.map (·.1 + 1)).toFinset := by
    obtain ⟨i, hi, hnot⟩ := hmissing
    intro hsub
    have hmem := hsub (Finset.mem_Icc.mpr ⟨by omega, by omega⟩ : i + 1 ∈ _)
    simp only [Finset.empty_union, List.mem_toFinset, List.mem_map] at hmem
    obtain ⟨d, hd, heq⟩ := hmem
    exact hnot d hd (by omega)
  obtain ⟨hout, hholds⟩ := receiveFragments_holds ctx sequence payload 1024 hseq' hbig
    (by norm_num) (by norm_num) hcount' pre _ ∅
    (FragmentBuffer.holdsPart_new _ _ _ timeoutMs hroom) (Finset.empty_subset _) hpre hmiss
  -- the last delivery brings the last missing fragment
  have hfull : insert (last.1 + 1) (∅ ∪ (pre.map (·.1 + 1)).toFinset) =
      Finset.Icc 1 (fragmentCount payload 1024) := by
    ext j
    simp only [Finset.mem_insert, Finset.empty_union, List.mem_toFinset, List.mem_map,
      Finset.mem_Icc]
    constructor
    · rintro (rfl | ⟨d, hd, rfl⟩)
      · omega
      · have := hpre d hd
        omega
    · intro hj
      obtain ⟨d, hd, hdj⟩ := hcover (j - 1) (by omega)
      rcases List.mem_append.mp hd with hd | hd
      · exact Or.inr ⟨d, hd, by omega⟩
      · simp only [List.mem_singleton] at hd
        subst hd
        exact Or.inl (by omega)
  have hstep := hholds.insert _ _ _
    (Finset.union_subset (Finset.empty_subset _) (fun j hj => by
      simp only [List.mem_toFinset, List.mem_map] at hj
      obtain ⟨d, hd, rfl⟩ := hj
      have := hpre d hd
      simp only [Finset.mem_Icc]
      omega)) last.2 (last.1 + 1) (by simp only [Finset.mem_Icc]; omega)
  rw [if_pos hfull, flatMap_fragmentPiece payload 1024 (by norm_num),
    ← feedDataFrag_packet ctx sequence payload 1024 _ last.2 last.1 hseq' hbig (by norm_num)
      (by norm_num) hcount' hlast] at hstep
  simp only [receiveFragments, Machine.run_append, Machine.run_cons, Machine.run_nil,
    List.append_nil] at hout hstep ⊢
  rw [hout, hstep]

theorem data_frag_round_trip_nine_fragments :
    (receiveFragments
        (buildDataFragPackets ⟨ByteArr.zero 12, ByteArr.zero 4, ByteArr.zero 4⟩ 1
          (List.replicate 9000 0) 1024)
        (FragmentBuffer.new 1 0) ((List.range 8).map (·, 0) ++ [(8, 0)])).2 =
      List.replicate 8 none ++ [some (List.replicate 9000 0)] := by
  have hbig : defaultMaxUnfragmentedSize < (List.replicate 9000 (0 : UInt8)).length := by
    rw [List.length_replicate]
    unfold defaultMaxUnfragmentedSize
    norm_num
  have hlen : (buildDataFragPackets ⟨ByteArr.zero 12, ByteArr.zero 4, ByteArr.zero 4⟩ 1
      (List.replicate 9000 0) 1024).length = 9 := by
    rw [length_buildDataFragPackets _ _ _ _ hbig, List.length_replicate]
  exact data_frag_round_trip _ _ _ 1 0 ((List.range 8).map (·, 0)) (8, 0) (by norm_num) hbig
    (by rw [List.length_replicate]; norm_num) (by norm_num) (by rw [hlen]; decide)
    (by rw [hlen]; decide) (by rw [hlen]; decide) (by rw [hlen]; decide)

end Hdds.Discovery
