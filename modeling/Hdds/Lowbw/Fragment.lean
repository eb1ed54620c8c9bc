import Hdds.Lowbw.Varint
import Hdds.Foundations.Assoc
import Hdds.Foundations.Chunking
import Hdds.Foundations.Codec

/-! # Fragmentation and reassembly of the low-bandwidth transport

`transport/lowbw/fragment.rs`. A payload longer than a fragment is cut into `frag_cnt`
consecutive fragments whose lengths differ by at most one (`calculate_fragment_size`), each
sent with a `FragHeader` of five varints; the `Reassembler` keeps one `PendingGroup` per
`(stream_id, group_id)` and hands the payload out when it holds `frag_cnt` distinct fragments.

* The `HashMap`s are `AList`s; an update through `get_mut` is `AList.replace`. Iteration order
  is the order of the entries, which only decides between equally old groups in
  `evict_oldest`.
* `Instant::now()` is an explicit `now` in milliseconds. The statistics and the `stream_id` a
  group keeps for debugging are left out: nothing reads them.
* Encoders return the bytes they write into the caller's buffer of length `bufLen`.

`fragment_eq_ok` gives the fragments of a payload: fragment `j` is the slice of the payload at
`calculate_fragment_offset` of length `calculate_fragment_size`. `Collecting` is what the
reassembler holds of one group; `Collecting.onFragment` is one fragment arriving, and the
reassembler refines the collector of `Chunking`: over any sequence of deliveries it hands the
payload out exactly when the distinct fragments gathered since it last did cover the group.
-/

namespace Hdds.Lowbw
open Wire Chunking Codec
set_option autoImplicit false

/-! ## Fragment headers -/

/-- `FragHeader`. -/
structure FragHeader where
  groupId : UInt32
  fragIdx : UInt16
  fragCnt : UInt16
  origLen : UInt32
  fragLen : UInt16
  deriving DecidableEq, Repr

/-- `FragError`. -/
inductive FragError
  | bufferTooSmall
  | invalidHeader
  | payloadTooLarge
  | groupNotFound
  | duplicateFragment
  | countMismatch
  | lengthMismatch
  | timeout
  | tooManyGroups
  deriving DecidableEq, Repr

namespace FragHeader

/-- `FragHeader::encoded_len`. -/
def encodedLen (h : FragHeader) : ℕ :=
  varintLen h.groupId.toNat + varintLen h.fragIdx.toNat + varintLen h.fragCnt.toNat +
    varintLen h.origLen.toNat + varintLen h.fragLen.toNat

/-- The five varints `FragHeader::encode` writes. -/
def bytes (h : FragHeader) : List UInt8 :=
  encodeVarint h.groupId.toNat ++ encodeVarint h.fragIdx.toNat ++ encodeVarint h.fragCnt.toNat ++
    encodeVarint h.origLen.toNat ++ encodeVarint h.fragLen.toNat

/-- `FragHeader::encode`. -/
def encode (h : FragHeader) (bufLen : ℕ) : Except FragError (List UInt8) :=
  if bufLen < h.encodedLen then .error .bufferTooSmall else .ok h.bytes

/-- `FragHeader::decode`: the header and the number of bytes read. -/
def decode (buf : List UInt8) : Except FragError (FragHeader × ℕ) := do
  let (groupId, n) ← (decodeVarint buf).mapError fun _ => .invalidHeader
  let offset := n
  let (fragIdx, n) ← (decodeVarint (buf.drop offset)).mapError fun _ => .invalidHeader
  let offset := offset + n
  let (fragCnt, n) ← (decodeVarint (buf.drop offset)).mapError fun _ => .invalidHeader
  let offset := offset + n
  let (origLen, n) ← (decodeVarint (buf.drop offset)).mapError fun _ => .invalidHeader
  let offset := offset + n
  let (fragLen, n) ← (decodeVarint (buf.drop offset)).mapError fun _ => .invalidHeader
  let offset := offset + n
  if fragIdx > 0xFFFF ∨ fragCnt > 0xFFFF ∨ fragLen > 0xFFFF then throw .invalidHeader
  if fragIdx ≥ fragCnt then throw .invalidHeader
  return (⟨UInt32.ofNat groupId, UInt16.ofNat fragIdx, UInt16.ofNat fragCnt, UInt32.ofNat origLen,
    UInt16.ofNat fragLen⟩, offset)

end FragHeader

/-- `Fragment`. -/
structure Fragment where
  header : FragHeader
  data : List UInt8
  deriving DecidableEq, Repr

namespace Fragment

/-- `Fragment::encode`: the header, then the data. -/
def encode (f : Fragment) (bufLen : ℕ) : Except FragError (List UInt8) := do
  let headerLen := f.header.encodedLen
  let total := headerLen + f.data.length
  if bufLen < total then throw .bufferTooSmall
  let headerBytes ← f.header.encode bufLen
  return headerBytes ++ f.data

/-- `Fragment::decode`: the fragment and the number of bytes read. -/
def decode (buf : List UInt8) : Except FragError (Fragment × ℕ) := do
  let (header, headerLen) ← FragHeader.decode buf
  let fragSize := header.fragLen.toNat
  if buf.length < headerLen + fragSize then throw .invalidHeader
  return (⟨header, field buf headerLen fragSize⟩, headerLen + fragSize)

end Fragment

/-! ## Fragmenter -/

/-- `calculate_fragment_size` (called with `frag_cnt ≥ 1` only). -/
def calculateFragmentSize (origLen : UInt32) (fragCnt fragIdx : UInt16) : ℕ :=
  let baseSize := origLen.toNat / fragCnt.toNat
  let remainder := origLen.toNat % fragCnt.toNat
  if fragIdx.toNat < remainder then baseSize + 1 else baseSize

/-- `calculate_fragment_offset`. -/
def calculateFragmentOffset (origLen : UInt32) (fragCnt fragIdx : UInt16) : ℕ :=
  let baseSize := origLen.toNat / fragCnt.toNat
  let remainder := origLen.toNat % fragCnt.toNat
  let fullFragsBefore := fragIdx.toNat
  let extraBytes := min fullFragsBefore remainder
  fullFragsBefore * baseSize + extraBytes

/-- `Fragmenter`: the largest fragment payload, at least 16 bytes as `Fragmenter::new`
makes it. -/
structure Fragmenter where
  maxFragPayload : ℕ
  sixteen_le : 16 ≤ maxFragPayload

namespace Fragmenter

/-- `Fragmenter::new`. -/
def new (mtu overhead : ℕ) : Fragmenter :=
  let fragHeaderReserve := 12
  let maxFragPayload := mtu - (overhead + fragHeaderReserve)
  ⟨max maxFragPayload 16, le_max_right _ _⟩

/-- `Fragmenter::needs_fragmentation`. -/
def needsFragmentation (f : Fragmenter) (payloadLen : ℕ) : Bool := payloadLen > f.maxFragPayload

/-- `Fragmenter::max_payload`. -/
def maxPayload (f : Fragmenter) : ℕ := f.maxFragPayload

end Fragmenter

/-- The loop of `Fragmenter::fragment` over the indices `fragIdxs`, from byte `offset` of the
payload on; each slice ends at the next fragment's size or at the end of the payload. -/
def fragmentLoop (payload : List UInt8) (groupId : UInt32) (fragCnt : UInt16) (origLen : UInt32) :
    List UInt16 → ℕ → List Fragment
  | [], _ => []
  | fragIdx :: fragIdxs, offset =>
    let fragSize := calculateFragmentSize origLen fragCnt fragIdx
    let stop := min (offset + fragSize) payload.length
    let fragData := field payload offset (stop - offset)
    ⟨⟨groupId, fragIdx, fragCnt, origLen, UInt16.ofNat fragData.length⟩, fragData⟩ ::
      fragmentLoop payload groupId fragCnt origLen fragIdxs stop

/-- `Fragmenter::fragment`. -/
def Fragmenter.fragment (f : Fragmenter) (payload : List UInt8) (groupId : UInt32) :
    Except FragError (List Fragment) :=
  if payload.isEmpty then .ok [⟨⟨groupId, 0, 1, 0, 0⟩, []⟩] else
  -- `payload.len().div_ceil(self.max_frag_payload)`
  let fragCnt := (payload.length + f.maxFragPayload - 1) / f.maxFragPayload
  if fragCnt > 0xFFFF then .error .payloadTooLarge else
  let fragCnt := UInt16.ofNat fragCnt
  let origLen := UInt32.ofNat payload.length
  .ok (fragmentLoop payload groupId fragCnt origLen ((List.range fragCnt.toNat).map UInt16.ofNat) 0)

/-! ## Reassembler -/

/-- `ReassemblerConfig`, with the timeout in milliseconds. -/
structure ReassemblerConfig where
  maxGroups : ℕ
  timeout : ℕ
  maxPayloadSize : ℕ

/-- `ReassemblerConfig::default`. -/
def ReassemblerConfig.default : ReassemblerConfig := ⟨16, 5000, 64 * 1024⟩

/-- `PendingGroup`. -/
structure PendingGroup where
  fragCnt : UInt16
  origLen : UInt32
  fragments : AList (fun _ : UInt16 => List UInt8)
  createdAt : ℕ

namespace PendingGroup

/-- `PendingGroup::new` at time `now`. -/
def new (fragCnt : UInt16) (origLen : UInt32) (now : ℕ) : PendingGroup := ⟨fragCnt, origLen, ∅, now⟩

/-- `PendingGroup::is_complete`: as many fragments as `frag_cnt`. -/
def isComplete (g : PendingGroup) : Bool := g.fragments.keys.length == g.fragCnt.toNat

/-- `PendingGroup::add_fragment`. -/
def addFragment (g : PendingGroup) (fragIdx : UInt16) (data : List UInt8) :
    Except FragError PendingGroup :=
  if fragIdx ∈ g.fragments then .error .duplicateFragment
  else .ok { g with fragments := g.fragments.insert fragIdx data }

/-- `PendingGroup::reassemble`: fragments `0 .. frag_cnt` in order. -/
def reassemble (g : PendingGroup) : Except FragError (List UInt8) := do
  if !g.isComplete then throw .groupNotFound
  let frags ← (List.range g.fragCnt.toNat).mapM fun fragIdx =>
    match g.fragments.lookup (UInt16.ofNat fragIdx) with
    | some fragData => pure fragData
    | none => throw .groupNotFound
  let payload := frags.flatten
  if payload.length ≠ g.origLen.toNat then throw .lengthMismatch
  return payload

end PendingGroup

/-- `GroupKey`. -/
structure GroupKey where
  streamId : UInt8
  groupId : UInt32
  deriving DecidableEq, Repr

/-- `Reassembler`. -/
structure Reassembler where
  config : ReassemblerConfig
  pending : AList (fun _ : GroupKey => PendingGroup)

namespace Reassembler

/-- `Reassembler::new`. -/
def new (config : ReassemblerConfig) : Reassembler := ⟨config, ∅⟩

/-- `Reassembler::evict_oldest`. -/
def evictOldest (r : Reassembler) : Reassembler :=
  match AList.firstMinKey (fun e => e.2.createdAt) r.pending.entries with
  | some oldestKey => { r with pending := r.pending.erase oldestKey }
  | none => r

/-- `Reassembler::tick` at time `now`: drop the groups as old as the timeout. -/
def tick (r : Reassembler) (now : ℕ) : Reassembler :=
  { r with pending := r.pending.retain fun _ g => decide (now - g.createdAt < r.config.timeout) }

/-- The group `on_fragment` works on: the pending one under `key`, or a new one, inserted after
`evict_oldest` when `max_groups` groups are pending; `get_mut(&key).unwrap()` then finds it. -/
def getOrCreate (r : Reassembler) (now : ℕ) (key : GroupKey) (header : FragHeader) :
    Reassembler × PendingGroup :=
  match r.pending.lookup key with
  | some group => (r, group)
  | none =>
    let r := if r.pending.keys.length ≥ r.config.maxGroups then r.evictOldest else r
    let group := PendingGroup.new header.fragCnt header.origLen now
    ({ r with pending := r.pending.insert key group }, group)

/-- `Reassembler::on_fragment` at time `now`: the new reassembler and the payload, if this
fragment completed its group. -/
def onFragment (r : Reassembler) (now : ℕ) (streamId : UInt8) (header : FragHeader)
    (data : List UInt8) : Reassembler × Except FragError (Option (List UInt8)) :=
  if header.origLen.toNat > r.config.maxPayloadSize then (r, .error .payloadTooLarge) else
  let key : GroupKey := ⟨streamId, header.groupId⟩
  let created := r.getOrCreate now key header
  let r := created.1
  let group := created.2
  if group.fragCnt ≠ header.fragCnt then (r, .error .countMismatch) else
  if group.origLen ≠ header.origLen then (r, .error .lengthMismatch) else
  match group.addFragment header.fragIdx data with
  | .error .duplicateFragment => (r, .ok none)
  | .error e => (r, .error e)
  | .ok group =>
    let r := { r with pending := r.pending.replace key group }
    if group.isComplete then
      match group.reassemble with
      | .ok payload => ({ r with pending := r.pending.erase key }, .ok (some payload))
      | .error e => (r, .error e)
    else (r, .ok none)

/-- The reassembler of one stream as a machine: a fragment arriving at time `now`, and what
`on_fragment` returns. -/
def step (streamId : UInt8) (r : Reassembler) (arrival : ℕ × Fragment) :
    Reassembler × List (Except FragError (Option (List UInt8))) :=
  let res := r.onFragment arrival.1 streamId arrival.2.header arrival.2.data
  (res.1, [res.2])

end Reassembler

/-! ## Headers and fragments read back -/

namespace FragHeader

theorem length_bytes (h : FragHeader) : h.bytes.length = h.encodedLen := by
  have := h.groupId.toNat_lt
  have := h.fragIdx.toNat_lt
  have := h.fragCnt.toNat_lt
  have := h.origLen.toNat_lt
  have := h.fragLen.toNat_lt
  simp only [bytes, encodedLen, List.length_append]
  rw [length_encodeVarint (by omega), length_encodeVarint (by omega), length_encodeVarint (by omega),
    length_encodeVarint (by omega), length_encodeVarint (by omega)]

/-- `FragHeader::decode` reads back every header whose index is below its count, whatever
follows it. -/
theorem decode_bytes (h : FragHeader) (hidx : h.fragIdx < h.fragCnt) (rest : List UInt8) :
    decode (h.bytes ++ rest) = .ok (h, h.encodedLen) := by
  obtain ⟨groupId, fragIdx, fragCnt, origLen, fragLen⟩ := h
  have hg := groupId.toNat_lt
  have hi := fragIdx.toNat_lt
  have hc := fragCnt.toNat_lt
  have ho := origLen.toNat_lt
  have hl := fragLen.toNat_lt
  have hlt : fragIdx.toNat < fragCnt.toNat := hidx
  -- the buffer as five varints and the rest, and what each drop leaves
  have hbuf : bytes ⟨groupId, fragIdx, fragCnt, origLen, fragLen⟩ ++ rest =
      encodeVarint groupId.toNat ++ (encodeVarint fragIdx.toNat ++ (encodeVarint fragCnt.toNat ++
        (encodeVarint origLen.toNat ++ (encodeVarint fragLen.toNat ++ rest)))) := by
    simp [bytes]
  rw [hbuf]
  simp only [decode, bind, Except.bind, Except.mapError, List.drop_drop.symm,
    decodeVarint_encodeVarint (by omega : groupId.toNat < 2 ^ 64),
    drop_encodeVarint (by omega : groupId.toNat < 2 ^ 64),
    decodeVarint_encodeVarint (by omega : fragIdx.toNat < 2 ^ 64),
    drop_encodeVarint (by omega : fragIdx.toNat < 2 ^ 64),
    decodeVarint_encodeVarint (by omega : fragCnt.toNat < 2 ^ 64),
    drop_encodeVarint (by omega : fragCnt.toNat < 2 ^ 64),
    decodeVarint_encodeVarint (by omega : origLen.toNat < 2 ^ 64),
    drop_encodeVarint (by omega : origLen.toNat < 2 ^ 64),
    decodeVarint_encodeVarint (by omega : fragLen.toNat < 2 ^ 64)]
  rw [if_neg (by omega), if_neg (by omega)]
  simp [pure, Except.pure, encodedLen, Nat.add_assoc]

end FragHeader

namespace Fragment

theorem encode_eq_ok (f : Fragment) {bufLen : ℕ} (h : f.header.encodedLen + f.data.length ≤ bufLen) :
    f.encode bufLen = .ok (f.header.bytes ++ f.data) := by
  simp only [encode, FragHeader.encode, bind, Except.bind]
  rw [if_neg (by omega), if_neg (by omega)]
  rfl

/-- `Fragment::decode` reads back a fragment whose header gives its index below its count and
its data length, whatever follows it. -/
theorem decode_encode (f : Fragment) (hidx : f.header.fragIdx < f.header.fragCnt)
    (hlen : f.header.fragLen.toNat = f.data.length) (rest : List UInt8) :
    decode (f.header.bytes ++ f.data ++ rest) = .ok (f, (f.header.bytes ++ f.data).length) := by
  have hbytes := f.header.length_bytes
  have hfield : field (f.header.bytes ++ f.data ++ rest) f.header.encodedLen f.data.length = f.data := by
    rw [← hbytes]
    exact field_append_self _ _ _
  rw [decode, List.append_assoc, FragHeader.decode_bytes f.header hidx, ← List.append_assoc]
  simp only [bind, Except.bind, hlen, List.length_append, hbytes]
  rw [if_neg (by omega), hfield]
  rfl

end Fragment

/-! ## The fragments of a payload -/

theorem calculateFragmentSize_ofNat {n j : ℕ} (hn : n < 2 ^ 32) (hj : j < 2 ^ 16) (fragCnt : UInt16) :
    calculateFragmentSize (UInt32.ofNat n) fragCnt (UInt16.ofNat j) = partSize n fragCnt.toNat j := by
  simp only [calculateFragmentSize, partSize, UInt32.toNat_ofNat_of_lt' hn, UInt16.toNat_ofNat_of_lt' hj]

theorem calculateFragmentOffset_ofNat {n j : ℕ} (hn : n < 2 ^ 32) (hj : j < 2 ^ 16) (fragCnt : UInt16) :
    calculateFragmentOffset (UInt32.ofNat n) fragCnt (UInt16.ofNat j) = partOffset n fragCnt.toNat j := by
  simp only [calculateFragmentOffset, partOffset, UInt32.toNat_ofNat_of_lt' hn,
    UInt16.toNat_ofNat_of_lt' hj]

/-- Fragment `j` of `payload` cut into `fragCnt` fragments: the slice at
`calculate_fragment_offset` of length `calculate_fragment_size`. -/
def fragmentAt (payload : List UInt8) (groupId : UInt32) (fragCnt : UInt16) (j : ℕ) : Fragment :=
  let origLen := UInt32.ofNat payload.length
  let fragIdx := UInt16.ofNat j
  let fragSize := calculateFragmentSize origLen fragCnt fragIdx
  ⟨⟨groupId, fragIdx, fragCnt, origLen, UInt16.ofNat fragSize⟩,
    field payload (calculateFragmentOffset origLen fragCnt fragIdx) fragSize⟩

section Payload

variable {payload : List UInt8} {fragCnt : UInt16}

theorem data_fragmentAt (hn : payload.length < 2 ^ 32) (groupId : UInt32) {j : ℕ}
    (hj : j < fragCnt.toNat) :
    (fragmentAt payload groupId fragCnt j).data =
      (payload.drop (partOffset payload.length fragCnt.toNat j)).take
        (partSize payload.length fragCnt.toNat j) := by
  have hj16 : j < 2 ^ 16 := Nat.lt_trans hj fragCnt.toNat_lt
  simp only [fragmentAt, calculateFragmentSize_ofNat hn hj16, calculateFragmentOffset_ofNat hn hj16]
  rfl

/-- Fragment `j` holds all of its part: the part ends inside the payload. -/
theorem length_field_part {j : ℕ} (hj : j < fragCnt.toNat) :
    (field payload (partOffset payload.length fragCnt.toNat j)
      (partSize payload.length fragCnt.toNat j)).length = partSize payload.length fragCnt.toNat j := by
  have hend := partOffset_le (n := payload.length) (Nat.zero_lt_of_lt hj) hj
  rw [partOffset_succ] at hend
  rw [field, List.length_take, List.length_drop]
  omega

/-- The loop of `fragment` from fragment `k` on, started at the offset of fragment `k`, writes
fragments `k, k + 1, …`. -/
theorem fragmentLoop_eq (hn : payload.length < 2 ^ 32) (groupId : UInt32) :
    ∀ m k, k + m ≤ fragCnt.toNat →
      fragmentLoop payload groupId fragCnt (UInt32.ofNat payload.length)
          ((List.range' k m).map UInt16.ofNat) (partOffset payload.length fragCnt.toNat k) =
        (List.range' k m).map (fragmentAt payload groupId fragCnt) := by
  intro m
  induction m with
  | zero => intro k _; rfl
  | succ m ih =>
    intro k hk
    have hk16 : k < 2 ^ 16 := Nat.lt_of_lt_of_le (by omega) fragCnt.toNat_lt
    -- this fragment ends where the next one starts, inside the payload
    have hend := partOffset_le (n := payload.length) (by omega : 0 < fragCnt.toNat)
      (by omega : k + 1 ≤ fragCnt.toNat)
    have hstop : min (partOffset payload.length fragCnt.toNat k +
        partSize payload.length fragCnt.toNat k) payload.length =
          partOffset payload.length fragCnt.toNat (k + 1) := by
      rw [partOffset_succ] at hend ⊢
      omega
    rw [List.range'_succ, List.map_cons, List.map_cons, fragmentLoop,
      calculateFragmentSize_ofNat hn hk16, hstop, ih (k + 1) (by omega), partOffset_succ,
      Nat.add_sub_cancel_left, length_field_part (by omega : k < fragCnt.toNat)]
    simp only [fragmentAt, calculateFragmentSize_ofNat hn hk16, calculateFragmentOffset_ofNat hn hk16]

/-- The fragments' data, in order, are the payload. -/
theorem flatten_data_fragmentAt (hn : payload.length < 2 ^ 32) (groupId : UInt32)
    (hc : 0 < fragCnt.toNat) :
    ((List.range fragCnt.toNat).map fun j => (fragmentAt payload groupId fragCnt j).data).flatten =
      payload := by
  have hdata : ∀ j ∈ List.range fragCnt.toNat, (fragmentAt payload groupId fragCnt j).data =
      (payload.drop (partOffset payload.length fragCnt.toNat j)).take
        (partSize payload.length fragCnt.toNat j) :=
    fun j hj => data_fragmentAt hn groupId (List.mem_range.mp hj)
  rw [List.map_congr_left hdata, ← List.flatMap_def, List.range_eq_range',
    flatMap_consecutive payload _ _ (partOffset_succ _ _), Nat.zero_add, partOffset_self hc]
  simp [partOffset]

/-- Fragment `j` is numbered `j`, below the count. -/
theorem toNat_fragIdx_fragmentAt (groupId : UInt32) {j : ℕ} (hj : j < fragCnt.toNat) :
    (fragmentAt payload groupId fragCnt j).header.fragIdx.toNat = j :=
  UInt16.toNat_ofNat_of_lt' (Nat.lt_trans hj fragCnt.toNat_lt)

/-- The header of fragment `j` gives its data length, when the length fits in a `u16`. -/
theorem fragLen_fragmentAt (hn : payload.length < 2 ^ 32) (groupId : UInt32) {j : ℕ}
    (hj : j < fragCnt.toNat) (hsize : partSize payload.length fragCnt.toNat j < 2 ^ 16) :
    (fragmentAt payload groupId fragCnt j).header.fragLen.toNat =
      (fragmentAt payload groupId fragCnt j).data.length := by
  have hj16 : j < 2 ^ 16 := Nat.lt_trans hj fragCnt.toNat_lt
  simp only [fragmentAt, calculateFragmentSize_ofNat hn hj16, calculateFragmentOffset_ofNat hn hj16,
    UInt16.toNat_ofNat_of_lt' hsize, length_field_part hj]

end Payload

/-- The number of fragments `fragment` cuts a payload into: one for an empty payload. -/
def Fragmenter.fragCount (f : Fragmenter) (payload : List UInt8) : ℕ :=
  if payload.isEmpty then 1 else (payload.length + f.maxFragPayload - 1) / f.maxFragPayload

namespace Fragmenter

variable (f : Fragmenter) (payload : List UInt8)

theorem fragCount_pos : 0 < f.fragCount payload := by
  have := f.sixteen_le
  unfold fragCount
  split
  · exact Nat.one_pos
  · rename_i hne
    have hlen : 0 < payload.length := List.length_pos_iff.mpr (by simpa using hne)
    exact Nat.div_pos (by omega) (by omega)

/-- The fragments hold the payload: `frag_cnt` fragments of `max_frag_payload` bytes. -/
theorem length_le_fragCount_mul : payload.length ≤ f.fragCount payload * f.maxFragPayload := by
  have := f.sixteen_le
  unfold fragCount
  split
  · rename_i hnil
    simp [List.isEmpty_iff.mp hnil]
  · have hdm := Nat.div_add_mod (payload.length + f.maxFragPayload - 1) f.maxFragPayload
    have hmod := Nat.mod_lt (payload.length + f.maxFragPayload - 1) (by omega : 0 < f.maxFragPayload)
    rw [Nat.mul_comm]
    generalize f.maxFragPayload * ((payload.length + f.maxFragPayload - 1) / f.maxFragPayload) = q at *
    omega

/-- `Fragmenter::fragment` cuts a payload that fits in a `u32` length and in at most
`u16::MAX` fragments into the fragments `fragmentAt`. -/
theorem fragment_eq_ok (groupId : UInt32) (hn : payload.length < 2 ^ 32)
    (hcnt : f.fragCount payload ≤ 0xFFFF) :
    f.fragment payload groupId = .ok ((List.range (f.fragCount payload)).map
      (fragmentAt payload groupId (UInt16.ofNat (f.fragCount payload)))) := by
  have hpos := f.fragCount_pos payload
  unfold fragment
  by_cases hnil : payload.isEmpty
  · rw [if_pos hnil, show f.fragCount payload = 1 from if_pos hnil, List.isEmpty_iff.mp hnil]
    rfl
  · have hc : f.fragCount payload = (payload.length + f.maxFragPayload - 1) / f.maxFragPayload := by
      rw [fragCount, if_neg hnil]
    rw [if_neg hnil, ← hc]
    dsimp only
    rw [if_neg (by omega)]
    have hc16 : (UInt16.ofNat (f.fragCount payload)).toNat = f.fragCount payload :=
      UInt16.toNat_ofNat_of_lt' (Nat.lt_of_le_of_lt hcnt (by decide))
    have hloop := fragmentLoop_eq hn groupId (f.fragCount payload) 0
      (show 0 + f.fragCount payload ≤ (UInt16.ofNat (f.fragCount payload)).toNat by omega)
    rw [hc16, show partOffset payload.length (f.fragCount payload) 0 = 0 by simp [partOffset]] at hloop
    simp only [hc16, List.range_eq_range', hloop]

end Fragmenter

/-! ## One group in the reassembler -/

namespace PendingGroup

theorem addFragment_of_mem {g : PendingGroup} {fragIdx : UInt16} (h : fragIdx ∈ g.fragments)
    (data : List UInt8) : g.addFragment fragIdx data = .error .duplicateFragment :=
  if_pos h

theorem addFragment_of_not_mem {g : PendingGroup} {fragIdx : UInt16} (h : fragIdx ∉ g.fragments)
    (data : List UInt8) :
    g.addFragment fragIdx data = .ok { g with fragments := g.fragments.insert fragIdx data } :=
  if_neg h

/-- A complete group whose fragments `0 .. frag_cnt` are `chunk 0, chunk 1, …`, adding up to
`orig_len` bytes, reassembles to their concatenation. -/
theorem reassemble_eq_ok {g : PendingGroup} {chunk : ℕ → List UInt8} (hcomplete : g.isComplete = true)
    (hfrag : ∀ i < g.fragCnt.toNat, g.fragments.lookup (UInt16.ofNat i) = some (chunk i))
    (hlen : ((List.range g.fragCnt.toNat).map chunk).flatten.length = g.origLen.toNat) :
    g.reassemble = .ok ((List.range g.fragCnt.toNat).map chunk).flatten := by
  have hmap : (List.range g.fragCnt.toNat).mapM (fun fragIdx =>
      match g.fragments.lookup (UInt16.ofNat fragIdx) with
      | some fragData => (pure fragData : Except FragError (List UInt8))
      | none => throw FragError.groupNotFound) = .ok ((List.range g.fragCnt.toNat).map chunk) :=
    mapM_eq_ok_map fun i hi => by rw [hfrag i (List.mem_range.mp hi)]; rfl
  simp only [reassemble, hcomplete, Bool.not_true, Bool.false_eq_true, ↓reduceIte, hmap, bind,
    Except.bind, hlen, ne_eq, not_true_eq_false]
  rfl

end PendingGroup

namespace Reassembler

@[simp] theorem config_evictOldest (r : Reassembler) : r.evictOldest.config = r.config := by
  unfold evictOldest
  split <;> rfl

variable {r : Reassembler} {now : ℕ} {key : GroupKey} {header : FragHeader}

@[simp] theorem config_getOrCreate : (r.getOrCreate now key header).1.config = r.config := by
  unfold getOrCreate
  split
  · rfl
  · split <;> simp

/-- The group `on_fragment` works on is the one the reassembler then holds under its key. -/
theorem lookup_getOrCreate :
    (r.getOrCreate now key header).1.pending.lookup key = some (r.getOrCreate now key header).2 := by
  unfold getOrCreate
  split
  · assumption
  · exact AList.lookup_insert _

theorem getOrCreate_of_lookup_some {g : PendingGroup} (h : r.pending.lookup key = some g) :
    r.getOrCreate now key header = (r, g) := by
  rw [getOrCreate, h]

theorem getOrCreate_of_lookup_none (h : r.pending.lookup key = none) :
    (r.getOrCreate now key header).2 = PendingGroup.new header.fragCnt header.origLen now := by
  rw [getOrCreate, h]

end Reassembler

section Group

variable (key : GroupKey) (fragCnt : UInt16) (origLen : UInt32) (chunk : ℕ → List UInt8)

/-- A group of `fragCnt` fragments of a payload of length `origLen` whose fragment `i` is
`chunk i`, holding exactly the fragments numbered in `S`. -/
def GroupHolds (g : PendingGroup) (S : Finset ℕ) : Prop :=
  g.fragCnt = fragCnt ∧ g.origLen = origLen ∧
    ∀ i : UInt16, g.fragments.lookup i = if i.toNat ∈ S then some (chunk i.toNat) else none

/-- What a reassembler holds of the group under `key` after the fragments numbered in `S`
arrived since it last handed the group out: no group and nothing received, or the group
holding exactly those fragments. -/
structure Collecting (r : Reassembler) (S : Finset ℕ) : Prop where
  absent : r.pending.lookup key = none → S = ∅
  present : ∀ g, r.pending.lookup key = some g → GroupHolds fragCnt origLen chunk g S

variable {key fragCnt origLen chunk}

theorem GroupHolds.mem_iff {g : PendingGroup} {S : Finset ℕ} (h : GroupHolds fragCnt origLen chunk g S)
    (i : UInt16) : i ∈ g.fragments ↔ i.toNat ∈ S := by
  rw [← AList.lookup_isSome, h.2.2 i]
  split <;> simp_all

/-- The group holds as many fragments as `S` numbers. -/
theorem GroupHolds.length_keys {g : PendingGroup} {S : Finset ℕ}
    (h : GroupHolds fragCnt origLen chunk g S) (hS : ∀ x ∈ S, x < 2 ^ 16) :
    g.fragments.keys.length = S.card := by
  have hnums : (g.fragments.keys.map UInt16.toNat).toFinset = S := by
    ext x
    simp only [List.mem_toFinset, List.mem_map]
    constructor
    · rintro ⟨i, hi, rfl⟩
      exact (h.mem_iff i).mp (AList.mem_keys.mp hi)
    · intro hx
      have hnum := UInt16.toNat_ofNat_of_lt' (hS x hx)
      exact ⟨UInt16.ofNat x, AList.mem_keys.mpr ((h.mem_iff _).mpr (by rwa [hnum])), hnum⟩
  have hnodup : (g.fragments.keys.map UInt16.toNat).Nodup :=
    (AList.keys_nodup _).map fun _ _ hab => UInt16.toNat.inj hab
  rw [← hnums, List.toFinset_card_of_nodup hnodup, List.length_map]

/-- A fragment not held yet, added to the group. -/
theorem GroupHolds.insert {g : PendingGroup} {S : Finset ℕ} (h : GroupHolds fragCnt origLen chunk g S)
    (i : UInt16) :
    GroupHolds fragCnt origLen chunk { g with fragments := g.fragments.insert i (chunk i.toNat) }
      (insert i.toNat S) := by
  refine ⟨h.1, h.2.1, fun j => ?_⟩
  by_cases hji : j = i
  · subst hji
    simp [AList.lookup_insert]
  · have hnum : j.toNat ≠ i.toNat := fun he => hji (UInt16.toNat.inj he)
    simp only [AList.lookup_insert_ne hji, h.2.2 j, Finset.mem_insert, hnum, false_or]

/-- The group is complete exactly when it holds every fragment. -/
theorem GroupHolds.isComplete_iff {g : PendingGroup} {S : Finset ℕ}
    (h : GroupHolds fragCnt origLen chunk g S) (hS : S ⊆ Finset.range fragCnt.toNat) :
    g.isComplete = true ↔ S = Finset.range fragCnt.toNat := by
  have hcard := h.length_keys fun x hx => Nat.lt_trans (Finset.mem_range.mp (hS hx)) fragCnt.toNat_lt
  rw [PendingGroup.isComplete, beq_iff_eq, hcard, h.1]
  constructor
  · intro hc
    exact Finset.eq_of_subset_of_card_le hS (by rw [Finset.card_range, hc])
  · rintro rfl
    exact Finset.card_range _

/-- A group holding every fragment reassembles to the fragments in order. -/
theorem GroupHolds.reassemble {g : PendingGroup} (h : GroupHolds fragCnt origLen chunk g (Finset.range fragCnt.toNat))
    (hwhole : ((List.range fragCnt.toNat).map chunk).flatten.length = origLen.toNat) :
    g.reassemble = .ok ((List.range fragCnt.toNat).map chunk).flatten := by
  have hfrag : ∀ j < g.fragCnt.toNat, g.fragments.lookup (UInt16.ofNat j) = some (chunk j) := by
    intro j hj
    rw [h.1] at hj
    have hnum := UInt16.toNat_ofNat_of_lt' (Nat.lt_trans hj fragCnt.toNat_lt)
    rw [h.2.2, hnum, if_pos (Finset.mem_range.mpr hj)]
  have hre := PendingGroup.reassemble_eq_ok ((h.isComplete_iff subset_rfl).mpr rfl) hfrag
    (by rw [h.1, h.2.1]; exact hwhole)
  rwa [h.1] at hre

/-- The group `on_fragment` works on, for a fragment of this group, holds the fragments of `S`. -/
theorem Collecting.getOrCreate {r : Reassembler} {S : Finset ℕ}
    (h : Collecting key fragCnt origLen chunk r S) (now : ℕ) {header : FragHeader}
    (hcnt : header.fragCnt = fragCnt) (hlen : header.origLen = origLen) :
    GroupHolds fragCnt origLen chunk (r.getOrCreate now key header).2 S := by
  cases hl : r.pending.lookup key with
  | none =>
    rw [Reassembler.getOrCreate_of_lookup_none hl, h.absent hl]
    exact ⟨hcnt, hlen, fun i => by simp [PendingGroup.new, AList.lookup_empty]⟩
  | some g =>
    rw [Reassembler.getOrCreate_of_lookup_some hl]
    exact h.present g hl

/-- One fragment of the group arriving: `on_fragment` refines one step of the collector of
the group's fragment numbers. A fragment already held changes nothing and gives `Ok(None)`; a
new one completes the group, which is then handed out whole and dropped, or is kept with it. -/
theorem Collecting.onFragment {r : Reassembler} {S : Finset ℕ}
    (h : Collecting key fragCnt origLen chunk r S) (hS : S ⊆ Finset.range fragCnt.toNat)
    (hfull : S ≠ Finset.range fragCnt.toNat)
    (hwhole : ((List.range fragCnt.toNat).map chunk).flatten.length = origLen.toNat)
    (hfit : origLen.toNat ≤ r.config.maxPayloadSize) (now : ℕ) {header : FragHeader}
    (hgroup : header.groupId = key.groupId) (hcnt : header.fragCnt = fragCnt)
    (hlen : header.origLen = origLen) (hidx : header.fragIdx < fragCnt) :
    let res := r.onFragment now key.streamId header (chunk header.fragIdx.toNat)
    let next := collect (Finset.range fragCnt.toNat) S header.fragIdx.toNat
    Collecting key fragCnt origLen chunk res.1 next.1 ∧ res.1.config = r.config ∧
      [res.2] = next.2.map fun done =>
        if done then .ok (some ((List.range fragCnt.toNat).map chunk).flatten) else .ok none := by
  have hkey : (⟨key.streamId, header.groupId⟩ : GroupKey) = key := by rw [hgroup]
  have holds := h.getOrCreate now hcnt hlen
  have hlook : (r.getOrCreate now key header).1.pending.lookup key =
      some (r.getOrCreate now key header).2 := Reassembler.lookup_getOrCreate
  have hi : header.fragIdx.toNat < fragCnt.toNat := hidx
  -- the checks before `add_fragment` pass: the size bound, the count and the length
  simp only [Reassembler.onFragment, hkey]
  rw [if_neg (by rw [hlen]; omega), if_neg (by rw [holds.1, hcnt]; exact not_not_intro rfl),
    if_neg (by rw [holds.2.1, hlen]; exact not_not_intro rfl)]
  by_cases hmem : header.fragIdx.toNat ∈ S
  · -- a fragment already held: nothing changes
    have hsame : insert header.fragIdx.toNat S = S := Finset.insert_eq_of_mem hmem
    simp only [collect_of_ne _ (by rw [hsame]; exact hfull), hsame,
      PendingGroup.addFragment_of_mem ((holds.mem_iff _).mpr hmem)]
    refine ⟨⟨fun hnone => ?_, fun g hg => ?_⟩, Reassembler.config_getOrCreate, rfl⟩
    · rw [hlook] at hnone
      cases hnone
    · rw [hlook] at hg
      cases hg
      exact holds
  · -- a new fragment: the group holds one more
    have holds' := holds.insert header.fragIdx
    have hS' : insert header.fragIdx.toNat S ⊆ Finset.range fragCnt.toNat :=
      Finset.insert_subset (Finset.mem_range.mpr hi) hS
    have hin : key ∈ (r.getOrCreate now key header).1.pending :=
      AList.lookup_isSome.mp (by rw [hlook]; rfl)
    simp only [PendingGroup.addFragment_of_not_mem (mt (holds.mem_iff _).mp hmem)]
    by_cases hdone : insert header.fragIdx.toNat S = Finset.range fragCnt.toNat
    · -- the last missing fragment: the group is handed out and dropped
      have hcomplete := (holds'.isComplete_iff hS').mpr hdone
      rw [hdone] at holds'
      simp only [hcomplete, if_true, holds'.reassemble hwhole, collect_of_eq _ hdone]
      refine ⟨⟨fun _ => rfl, fun g hg => ?_⟩, Reassembler.config_getOrCreate, rfl⟩
      simp [AList.lookup_erase] at hg
    · -- still incomplete: the group is kept with the new fragment
      have hincomplete : PendingGroup.isComplete { (r.getOrCreate now key header).2 with
          fragments := (r.getOrCreate now key header).2.fragments.insert header.fragIdx
            (chunk header.fragIdx.toNat) } = false := by
        rw [← Bool.not_eq_true, holds'.isComplete_iff hS']
        exact hdone
      simp only [hincomplete, Bool.false_eq_true, if_false, collect_of_ne _ hdone]
      refine ⟨⟨fun hnone => ?_, fun g hg => ?_⟩, Reassembler.config_getOrCreate, rfl⟩
      · rw [AList.lookup_replace hin] at hnone
        cases hnone
      · rw [AList.lookup_replace hin] at hg
        cases hg
        exact holds'

/-- Fragments of the group arriving at any times, in any order and with repeats: the
reassembler refines the collector of their fragment numbers, and hands the payload out at
exactly the arrivals where the collector completes a round. -/
theorem Collecting.run {r : Reassembler} {S : Finset ℕ}
    (h : Collecting key fragCnt origLen chunk r S) (hS : S ⊂ Finset.range fragCnt.toNat)
    (hwhole : ((List.range fragCnt.toNat).map chunk).flatten.length = origLen.toNat)
    (hfit : origLen.toNat ≤ r.config.maxPayloadSize) (arrivals : List (ℕ × Fragment))
    (hof : ∀ a ∈ arrivals, a.2.header.groupId = key.groupId ∧ a.2.header.fragCnt = fragCnt ∧
      a.2.header.origLen = origLen ∧ a.2.header.fragIdx < fragCnt ∧
      a.2.data = chunk a.2.header.fragIdx.toNat) :
    (Machine.run (Reassembler.step key.streamId) r arrivals).2 =
      (Machine.run (collect (Finset.range fragCnt.toNat)) S
        (arrivals.map fun a => a.2.header.fragIdx.toNat)).2.map fun done =>
          if done then .ok (some ((List.range fragCnt.toNat).map chunk).flatten) else .ok none := by
  -- related states: the reassembler collects what the collector holds, which is never the
  -- whole group, and the size bound of its configuration still admits the payload
  have hrel := Machine.run_related (Reassembler.step key.streamId)
    (collect (Finset.range fragCnt.toNat))
    (fun r S => Collecting key fragCnt origLen chunk r S ∧ S ⊂ Finset.range fragCnt.toNat ∧
      origLen.toNat ≤ r.config.maxPayloadSize)
    (fun (a : ℕ × Fragment) i => (a.2.header.groupId = key.groupId ∧ a.2.header.fragCnt = fragCnt ∧
      a.2.header.origLen = origLen ∧ a.2.header.fragIdx < fragCnt ∧
      a.2.data = chunk a.2.header.fragIdx.toNat) ∧ a.2.header.fragIdx.toNat = i)
    id (fun done => if done then .ok (some ((List.range fragCnt.toNat).map chunk).flatten) else .ok none)
    (fun r S a i ⟨hc, hsub, hfit⟩ ⟨⟨hg, hcnt, hlen, hidx, hdata⟩, hi⟩ => by
      subst hi
      obtain ⟨hc', hconfig, hout⟩ := hc.onFragment hsub.subset hsub.ne hwhole hfit a.1 hg hcnt hlen hidx
      have hmem : a.2.header.fragIdx.toNat ∈ Finset.range fragCnt.toNat := Finset.mem_range.mpr hidx
      simp only [Reassembler.step, hdata, List.map_cons, List.map_nil, id]
      exact ⟨⟨hc', collect_fst_ssubset _ hsub hmem, hconfig ▸ hfit⟩, hout⟩)
    (List.forall₂_map_right_iff.mpr (List.forall₂_same.mpr fun a ha => ⟨hof a ha, rfl⟩))
    r S ⟨h, hS, hfit⟩
  simpa using hrel.2

end Group

/-! ## Fragmentation and reassembly end to end -/

/-- Low-bandwidth fragmentation round trip: a payload cut by `Fragmenter::new(mtu, overhead)`
into fragments of at most `max_payload()` bytes, which sum to the payload and each read back
after `Fragment::encode`, and delivered at any times, in any order and with any repeats to a
reassembler that has no group of this `(stream_id, group_id)`, comes out of `on_fragment` as
`Ok(Some(payload))` exactly at the deliveries where the distinct fragments received since the
start, or since it last came out, make up all of them, and as `Ok(None)` at every other. -/
theorem fragment_reassembly_rounds (mtu overhead : ℕ)
    (hmax : (Fragmenter.new mtu overhead).maxPayload ≤ 0xFFFF) (payload : List UInt8)
    (hcnt : (payload.length + (Fragmenter.new mtu overhead).maxPayload - 1) /
      (Fragmenter.new mtu overhead).maxPayload ≤ 0xFFFF)
    (groupId : UInt32) (streamId : UInt8) (r : Reassembler)
    (hfit : payload.length ≤ r.config.maxPayloadSize)
    (hfree : r.pending.lookup ⟨streamId, groupId⟩ = none) :
    ∃ frags, (Fragmenter.new mtu overhead).fragment payload groupId = .ok frags ∧
      (∀ f ∈ frags, f.data.length ≤ (Fragmenter.new mtu overhead).maxPayload) ∧
      (frags.map fun f => f.data.length).sum = payload.length ∧
      (∀ f ∈ frags, ∀ bufLen, f.header.encodedLen + f.data.length ≤ bufLen →
        ∃ bytes, f.encode bufLen = .ok bytes ∧
          ∀ rest, Fragment.decode (bytes ++ rest) = .ok (f, bytes.length)) ∧
      ∀ arrivals : List (ℕ × Fragment), (∀ a ∈ arrivals, a.2 ∈ frags) →
        (Machine.run (Reassembler.step streamId) r arrivals).2 =
          (Machine.run (collect (Finset.range frags.length)) ∅
            (arrivals.map fun a => a.2.header.fragIdx.toNat)).2.map fun done =>
              if done then .ok (some payload) else .ok none := by
  set F := Fragmenter.new mtu overhead
  have hm : F.maxPayload = F.maxFragPayload := rfl
  -- the count the fragmenter computes fits in a `u16`, and the payload length in a `u32`
  have hc16 : F.fragCount payload ≤ 0xFFFF := by
    unfold Fragmenter.fragCount
    split
    · omega
    · exact hcnt
  have hcpos := F.fragCount_pos payload
  have hcover := F.length_le_fragCount_mul payload
  have hn : payload.length < 2 ^ 32 := by
    have := Nat.mul_le_mul hc16 (hm ▸ hmax)
    omega
  set fragCnt : UInt16 := UInt16.ofNat (F.fragCount payload)
  have hcnat : fragCnt.toNat = F.fragCount payload :=
    UInt16.toNat_ofNat_of_lt' (Nat.lt_of_le_of_lt hc16 (by decide))
  -- every part is at most `max_payload()` long
  have hsize : ∀ j, partSize payload.length fragCnt.toNat j ≤ F.maxFragPayload := fun j =>
    partSize_le (by omega) (by rw [hcnat]; exact hcover) j
  have hwhole := flatten_data_fragmentAt hn groupId (by omega : 0 < fragCnt.toNat)
  refine ⟨(List.range (F.fragCount payload)).map (fragmentAt payload groupId fragCnt),
    F.fragment_eq_ok payload groupId hn hc16, ?_, ?_, ?_, ?_⟩
  · -- the data of each fragment is one part
    intro f hf
    obtain ⟨j, hj, rfl⟩ := List.mem_map.mp hf
    rw [data_fragmentAt hn groupId (by rw [hcnat]; exact List.mem_range.mp hj)]
    exact (List.length_take_le _ _).trans (hsize j)
  · -- the parts add up to the payload
    calc (((List.range (F.fragCount payload)).map (fragmentAt payload groupId fragCnt)).map
          fun f => f.data.length).sum
        = (((List.range fragCnt.toNat).map fun j =>
            (fragmentAt payload groupId fragCnt j).data).map List.length).sum := by
          rw [hcnat, List.map_map, List.map_map]
          rfl
      _ = payload.length := by rw [← List.length_flatten, hwhole]
  · -- each fragment reads back after encoding
    intro f hf bufLen hbuf
    obtain ⟨j, hj, rfl⟩ := List.mem_map.mp hf
    have hj' : j < fragCnt.toNat := by rw [hcnat]; exact List.mem_range.mp hj
    have hidx : (fragmentAt payload groupId fragCnt j).header.fragIdx < fragCnt :=
      UInt16.lt_iff_toNat_lt.mpr (by rw [toNat_fragIdx_fragmentAt groupId hj']; exact hj')
    have hlen := fragLen_fragmentAt hn groupId hj' (by have := hsize j; omega)
    exact ⟨_, Fragment.encode_eq_ok _ hbuf, Fragment.decode_encode _ hidx hlen⟩
  · -- delivered fragments of this group: the reassembler refines the collector
    intro arrivals harr
    have hof : ∀ a ∈ arrivals, a.2.header.groupId = groupId ∧ a.2.header.fragCnt = fragCnt ∧
        a.2.header.origLen = UInt32.ofNat payload.length ∧ a.2.header.fragIdx < fragCnt ∧
        a.2.data = (fragmentAt payload groupId fragCnt a.2.header.fragIdx.toNat).data := by
      intro a ha
      obtain ⟨j, hj, hfa⟩ := List.mem_map.mp (harr a ha)
      have hj' : j < fragCnt.toNat := by rw [hcnat]; exact List.mem_range.mp hj
      rw [← hfa, toNat_fragIdx_fragmentAt groupId hj']
      exact ⟨rfl, rfl, rfl,
        UInt16.lt_iff_toNat_lt.mpr (by rw [toNat_fragIdx_fragmentAt groupId hj']; exact hj'), rfl⟩
    -- the reassembler starts with nothing of this group
    have hstart : Collecting ⟨streamId, groupId⟩ fragCnt (UInt32.ofNat payload.length)
        (fun j => (fragmentAt payload groupId fragCnt j).data) r ∅ :=
      ⟨fun _ => rfl, fun g hg => by rw [hfree] at hg; cases hg⟩
    have hpart : (∅ : Finset ℕ) ⊂ Finset.range fragCnt.toNat :=
      Finset.empty_ssubset.mpr ⟨0, Finset.mem_range.mpr (by omega)⟩
    have hrun := hstart.run hpart (by rw [hwhole, UInt32.toNat_ofNat_of_lt' hn])
      (by rw [UInt32.toNat_ofNat_of_lt' hn]; exact hfit) arrivals hof
    rw [List.length_map, List.length_range, ← hcnat]
    rw [hwhole] at hrun
    exact hrun

/-- A 150-byte payload through a fragmenter for a 100-byte MTU with 20 bytes of overhead, to a
fresh reassembler with the default configuration. -/
theorem fragment_reassembly_rounds_three_fragments :
    (Fragmenter.new 100 20).maxPayload ≤ 0xFFFF ∧
      ((List.replicate 150 (7 : UInt8)).length + (Fragmenter.new 100 20).maxPayload - 1) /
        (Fragmenter.new 100 20).maxPayload ≤ 0xFFFF ∧
      (List.replicate 150 (7 : UInt8)).length ≤ (Reassembler.new .default).config.maxPayloadSize ∧
      (Reassembler.new .default).pending.lookup ⟨1, 0⟩ = none ∧
      ∃ frags, (Fragmenter.new 100 20).fragment (List.replicate 150 7) 0 = .ok frags ∧
        (∀ f ∈ frags, f.data.length ≤ (Fragmenter.new 100 20).maxPayload) ∧
        (frags.map fun f => f.data.length).sum = (List.replicate 150 (7 : UInt8)).length ∧
        (∀ f ∈ frags, ∀ bufLen, f.header.encodedLen + f.data.length ≤ bufLen →
          ∃ bytes, f.encode bufLen = .ok bytes ∧
            ∀ rest, Fragment.decode (bytes ++ rest) = .ok (f, bytes.length)) ∧
        ∀ arrivals : List (ℕ × Fragment), (∀ a ∈ arrivals, a.2 ∈ frags) →
          (Machine.run (Reassembler.step 1) (Reassembler.new .default) arrivals).2 =
            (Machine.run (collect (Finset.range frags.length)) ∅
              (arrivals.map fun a => a.2.header.fragIdx.toNat)).2.map fun done =>
                if done then .ok (some (List.replicate 150 7)) else .ok none :=
  have hmax : (Fragmenter.new 100 20).maxPayload ≤ 0xFFFF := by decide
  have hcnt : ((List.replicate 150 (7 : UInt8)).length + (Fragmenter.new 100 20).maxPayload - 1) /
      (Fragmenter.new 100 20).maxPayload ≤ 0xFFFF := by
    simp [Fragmenter.new, Fragmenter.maxPayload]
  have hfit : (List.replicate 150 (7 : UInt8)).length ≤
      (Reassembler.new .default).config.maxPayloadSize := by
    simp [Reassembler.new, ReassemblerConfig.default]
  have hfree : (Reassembler.new .default).pending.lookup ⟨1, 0⟩ = none := rfl
  ⟨hmax, hcnt, hfit, hfree,
    fragment_reassembly_rounds 100 20 hmax _ hcnt 0 1 _ hfit hfree⟩

/-- A payload of one fragment delivered twice comes out twice: completing the group drops it,
so the repeated fragment starts a new group of one fragment, which is complete at once. -/
theorem single_fragment_delivered_twice :
    (Fragmenter.new 100 20).fragment [1, 2, 3] 0 = .ok [⟨⟨0, 0, 1, 3, 3⟩, [1, 2, 3]⟩] ∧
      (Machine.run (Reassembler.step 1) (Reassembler.new .default)
        [(0, ⟨⟨0, 0, 1, 3, 3⟩, [1, 2, 3]⟩), (1, ⟨⟨0, 0, 1, 3, 3⟩, [1, 2, 3]⟩)]).2 =
        [.ok (some [1, 2, 3]), .ok (some [1, 2, 3])] := by
  decide

end Hdds.Lowbw
