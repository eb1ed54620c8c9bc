import Hdds.Lowbw.Varint

/-! # Frames and records of the low-bandwidth transport

`transport/lowbw/frame.rs`, `record.rs` and `crc.rs`. A frame is

  `sync | version | flags | frame_len | session_id | frame_seq | records | crc16?`

with `frame_len`, `session_id` and `frame_seq` as varints, `frame_len` counting the bytes from
`session_id` to the end, and a big-endian CRC-16/CCITT over `session_id .. records` when the
`CRC_PRESENT` flag is set. The records region is a run of

  `stream_id | rflags | msg_seq | len | payload`

with `msg_seq` and `len` as varints.

* Encoders return the bytes they write into the caller's buffer of length `bufLen`.
* A range slice `&buf[a..b]` that panics in the source is `slice?`; `decodeFrame` is `none`
  exactly where the source panics.
* `decode_records` loops while bytes remain; every record takes at least 4 bytes, so the
  length of the buffer is enough fuel.

`frame_records_round_trip`: for every version-1 header and every list of records with payloads
of at most `MAX_PAYLOAD_SIZE` bytes, the decoder reads back the header, the records region and
the frame length from an encoded frame followed by anything, and `decode_records` returns the
records in order.
-/

namespace Hdds.Lowbw
open Wire
set_option autoImplicit false

/-! ## CRC-16/CCITT -/

/-- One bit of the `CRC_TABLE` construction (polynomial `0x1021`). -/
def crcTableStep (crc : UInt16) : UInt16 :=
  if crc &&& 0x8000 ≠ 0 then (crc <<< 1) ^^^ 0x1021 else crc <<< 1

/-- `CRC_TABLE`. -/
def crcTable : List UInt16 :=
  (List.range 256).map fun i => Nat.repeat crcTableStep 8 (UInt16.ofNat i <<< 8)

/-- `crc16_ccitt_update`. -/
def crc16CcittUpdate (crc : UInt16) (data : List UInt8) : UInt16 :=
  data.foldl (fun crc byte => (crc <<< 8) ^^^ crcTable.getD ((crc >>> 8) ^^^ byte.toUInt16).toNat 0) crc

/-- `crc16_ccitt`, from the initial value `0xFFFF`. -/
def crc16Ccitt (data : List UInt8) : UInt16 := crc16CcittUpdate 0xFFFF data

-- the CRC-16/CCITT-FALSE check value of "123456789"
example : crc16Ccitt [0x31, 0x32, 0x33, 0x34, 0x35, 0x36, 0x37, 0x38, 0x39] = 0x29B1 := by decide

/-- `verify_crc16`. -/
def verifyCrc16 (data : List UInt8) (expectedCrc : UInt16) : Bool := crc16Ccitt data == expectedCrc

/-! ## Records -/

/-- `MAX_PAYLOAD_SIZE`. -/
def maxPayloadSize : ℕ := 1500

/-- `RecordError`. -/
inductive RecordError
  | bufferTooSmall
  | payloadTooLarge
  | truncated
  | varintError
deriving DecidableEq, Repr

/-- `RecordHeader`. -/
structure RecordHeader where
  streamId : UInt8
  flags : UInt8
  msgSeq : UInt32
deriving DecidableEq, Repr

/-- The bytes `encode_record` writes. -/
def recordBytes (header : RecordHeader) (payload : List UInt8) : List UInt8 :=
  [header.streamId, header.flags] ++ encodeVarint header.msgSeq.toNat ++
    encodeVarint payload.length ++ payload

/-- `encode_record`. -/
def encodeRecord (header : RecordHeader) (payload : List UInt8) (bufLen : ℕ) :
    Except RecordError (List UInt8) :=
  if payload.length > maxPayloadSize then .error .payloadTooLarge
  else
    let seqLen := varintLen header.msgSeq.toNat
    let lenLen := varintLen payload.length
    let totalSize := 2 + seqLen + lenLen + payload.length
    if bufLen < totalSize then .error .bufferTooSmall
    else .ok (recordBytes header payload)

/-- `DecodedRecord`. -/
structure DecodedRecord where
  header : RecordHeader
  payload : List UInt8
  consumed : ℕ
deriving DecidableEq, Repr

/-- `decode_record`. -/
def decodeRecord (buf : List UInt8) : Except RecordError DecodedRecord := do
  if buf.length < 4 then throw .truncated
  let streamId := buf.getD 0 0
  let flags := buf.getD 1 0
  let (msgSeq, seqBytes) ← (decodeVarintU32 (buf.drop 2)).mapError fun _ => .varintError
  let offset := 2 + seqBytes
  let (len, lenBytes) ← (decodeVarint (buf.drop offset)).mapError fun _ => .varintError
  let offset := offset + lenBytes
  if len > maxPayloadSize then throw .payloadTooLarge
  if buf.length < offset + len then throw .truncated
  return ⟨⟨streamId, flags, msgSeq⟩, field buf offset len, offset + len⟩

/-- The loop of `decode_records` over the bytes from `offset` on; a truncated record after at
least one decoded record ends the loop. -/
def decodeRecordsLoop : ℕ → List UInt8 → ℕ → Except RecordError (List DecodedRecord × ℕ)
  | 0, _, offset => .ok ([], offset)
  | _ + 1, [], offset => .ok ([], offset)
  | fuel + 1, rest@(_ :: _), offset =>
    match decodeRecord rest with
    | .ok record =>
      (decodeRecordsLoop fuel (rest.drop record.consumed) (offset + record.consumed)).map
        fun r => (record :: r.1, r.2)
    | .error .truncated => if offset > 0 then .ok ([], offset) else .error .truncated
    | .error e => .error e

/-- `decode_records`: the records and the number of bytes consumed. -/
def decodeRecords (buf : List UInt8) : Except RecordError (List DecodedRecord × ℕ) :=
  decodeRecordsLoop buf.length buf 0

/-! ## Frames -/

/-- `FRAME_SYNC`. -/
def frameSync : UInt8 := 0xA5

/-- `FRAME_VERSION`. -/
def frameVersion : UInt8 := 1

/-- `MAX_FRAME_SIZE`. -/
def maxFrameSize : ℕ := 2048

/-- `MIN_FRAME_SIZE`. -/
def minFrameSize : ℕ := 5

/-- `flags::CRC_PRESENT`. -/
def crcPresent : UInt8 := 0x01

/-- `FrameError`. -/
inductive FrameError
  | bufferTooSmall
  | invalidSync
  | unsupportedVersion
  | frameTooLarge
  | crcMismatch
  | truncated
  | varintError
deriving DecidableEq, Repr

/-- `FrameHeader`. -/
structure FrameHeader where
  version : UInt8
  flags : UInt8
  sessionId : UInt16
  frameSeq : UInt32
deriving DecidableEq, Repr

/-- `FrameHeader::new`: version 1, with the CRC flag. -/
def FrameHeader.new (sessionId : UInt16) (frameSeq : UInt32) : FrameHeader :=
  ⟨frameVersion, crcPresent, sessionId, frameSeq⟩

/-- `FrameHeader::has_crc`. -/
def FrameHeader.hasCrc (header : FrameHeader) : Bool := header.flags &&& crcPresent ≠ 0

/-- `encode_frame`. -/
def encodeFrame (header : FrameHeader) (records : List UInt8) (bufLen : ℕ) :
    Except FrameError (List UInt8) :=
  let sessionLen := varintLen header.sessionId.toNat
  let seqLen := varintLen header.frameSeq.toNat
  let crcLen := if header.hasCrc then 2 else 0
  let frameLen := sessionLen + seqLen + records.length + crcLen
  let frameLenBytes := varintLen frameLen
  let totalSize := 3 + frameLenBytes + frameLen
  if totalSize > maxFrameSize then .error .frameTooLarge
  else if bufLen < totalSize then .error .bufferTooSmall
  else
    -- the bytes the CRC covers
    let covered := encodeVarint header.sessionId.toNat ++ encodeVarint header.frameSeq.toNat ++ records
    let crc := if header.hasCrc then toBE 2 (crc16Ccitt covered).toNat else []
    .ok ([frameSync, header.version, header.flags] ++ encodeVarint frameLen ++ covered ++ crc)

/-- `DecodedFrame`. -/
structure DecodedFrame where
  header : FrameHeader
  records : List UInt8
  consumed : ℕ
deriving DecidableEq, Repr

/-- `decode_frame`; `none` where the source panics. -/
def decodeFrame (buf : List UInt8) : Option (Except FrameError DecodedFrame) := do
  if buf.length < minFrameSize then return .error .truncated
  if buf.getD 0 0 ≠ frameSync then return .error .invalidSync
  let version := buf.getD 1 0
  if version ≠ frameVersion then return .error .unsupportedVersion
  let flags := buf.getD 2 0
  let .ok (frameLen, lenBytes) := decodeVarint (buf.drop 3) | return .error .varintError
  let offset := 3 + lenBytes
  if frameLen > maxFrameSize then return .error .frameTooLarge
  let totalFrameSize := offset + frameLen
  if buf.length < totalFrameSize then return .error .truncated
  let crcStart := offset
  let hasCrc := flags &&& crcPresent ≠ 0
  let crcLen := if hasCrc then 2 else 0
  if hasCrc then
    let crcOffset := offset + frameLen - 2
    let storedCrc := UInt16.ofNat (ofBE (field buf crcOffset 2))
    let covered ← slice? buf crcStart crcOffset
    if !verifyCrc16 covered storedCrc then
      if crc16Ccitt covered ≠ storedCrc then return .error .crcMismatch
  let .ok (sessionId, sessionBytes) := decodeVarintU16 (buf.drop offset)
    | return .error .varintError
  let offset := offset + sessionBytes
  let .ok (frameSeq, seqBytes) := decodeVarintU32 (buf.drop offset) | return .error .varintError
  let offset := offset + seqBytes
  let recordsEnd := crcStart + frameLen - crcLen
  let records ← slice? buf offset recordsEnd
  return .ok ⟨⟨version, flags, sessionId, frameSeq⟩, records, totalFrameSize⟩

/-! ## Records read back -/

section Records

variable {header : RecordHeader} {payload : List UInt8}

theorem msgSeq_lt (header : RecordHeader) : header.msgSeq.toNat < 2 ^ 64 := by
  have := header.msgSeq.toNat_lt
  omega

theorem length_recordBytes (h : payload.length ≤ maxPayloadSize) :
    (recordBytes header payload).length =
      2 + varintLen header.msgSeq.toNat + varintLen payload.length + payload.length := by
  unfold maxPayloadSize at h
  simp [recordBytes, length_encodeVarint (msgSeq_lt header),
    length_encodeVarint (show payload.length < 2 ^ 64 by omega)]
  omega

/-- `encode_record` succeeds with `recordBytes` exactly when the payload fits and the buffer
holds the record. -/
theorem encodeRecord_eq_ok {bufLen : ℕ} {bytes : List UInt8}
    (h : encodeRecord header payload bufLen = .ok bytes) :
    payload.length ≤ maxPayloadSize ∧ bytes = recordBytes header payload := by
  unfold encodeRecord at h
  by_cases hbig : payload.length > maxPayloadSize
  · rw [if_pos hbig] at h
    cases h
  rw [if_neg hbig] at h
  dsimp only at h
  split_ifs at h
  exact ⟨by omega, (Except.ok.inj h).symm⟩

/-- `decode_record` reads back a record, whatever follows it. -/
theorem decodeRecord_recordBytes (h : payload.length ≤ maxPayloadSize) (more : List UInt8) :
    decodeRecord (recordBytes header payload ++ more) =
      .ok ⟨header, payload, (recordBytes header payload).length⟩ := by
  have hpay : payload.length < 2 ^ 64 := by unfold maxPayloadSize at h; omega
  have hseqLen := length_encodeVarint (msgSeq_lt header)
  have hlenLen := length_encodeVarint hpay
  have hlen : (recordBytes header payload).length = _ := length_recordBytes h
  have h1 := one_le_varintLen header.msgSeq.toNat
  have h2 := one_le_varintLen payload.length
  have hdrop2 : (recordBytes header payload ++ more).drop 2 =
      encodeVarint header.msgSeq.toNat ++ (encodeVarint payload.length ++ payload ++ more) := by
    simp [recordBytes]
  have hdropLen : (recordBytes header payload ++ more).drop (2 + varintLen header.msgSeq.toNat) =
      encodeVarint payload.length ++ (payload ++ more) := by
    rw [← List.drop_drop, hdrop2, ← hseqLen, List.drop_left']
    · simp
    · rfl
  have hfield : field (recordBytes header payload ++ more)
      (2 + varintLen header.msgSeq.toNat + varintLen payload.length) payload.length = payload := by
    have hpos : 2 + varintLen header.msgSeq.toNat + varintLen payload.length =
        ([header.streamId, header.flags] ++ encodeVarint header.msgSeq.toNat ++
          encodeVarint payload.length).length := by
      simp [hseqLen, hlenLen]
      omega
    rw [hpos]
    exact field_append_self _ payload more
  have hbuf : (recordBytes header payload ++ more).length =
      2 + varintLen header.msgSeq.toNat + varintLen payload.length + payload.length + more.length := by
    rw [List.length_append, hlen]
  simp only [decodeRecord, bind, Except.bind, hdrop2, decodeVarintU32_encodeVarint, Except.mapError,
    hdropLen, decodeVarint_encodeVarint hpay]
  rw [if_neg (by omega), if_neg (not_lt.mpr h), if_neg (by omega), hfield, hlen]
  simp [recordBytes, pure, Except.pure]

/-- `decode_records` reads back a run of records, in order, and consumes all of it. -/
theorem decodeRecordsLoop_flatMap (recs : List (RecordHeader × List UInt8))
    (hpay : ∀ x ∈ recs, x.2.length ≤ maxPayloadSize) :
    ∀ fuel offset, recs.length ≤ fuel →
      decodeRecordsLoop fuel (recs.flatMap fun x => recordBytes x.1 x.2) offset =
        .ok (recs.map (fun x => ⟨x.1, x.2, (recordBytes x.1 x.2).length⟩),
          offset + (recs.flatMap fun x => recordBytes x.1 x.2).length) := by
  induction recs with
  | nil =>
    intro fuel offset _
    cases fuel <;> simp [decodeRecordsLoop]
  | cons x recs ih =>
    intro fuel offset hfuel
    obtain ⟨fuel, rfl⟩ : ∃ f, fuel = f + 1 := ⟨fuel - 1, by simp at hfuel; omega⟩
    have hx := hpay x List.mem_cons_self
    have hne : recordBytes x.1 x.2 ≠ [] := by
      intro he
      have := congrArg List.length he
      rw [length_recordBytes hx] at this
      simp at this
    obtain ⟨b, bs, hbs⟩ := List.exists_cons_of_ne_nil hne
    rw [List.flatMap_cons, hbs, List.cons_append, decodeRecordsLoop, ← List.cons_append, ← hbs,
      decodeRecord_recordBytes hx]
    dsimp only
    rw [List.drop_left, ih (fun y hy => hpay y (List.mem_cons_of_mem _ hy)) fuel _
      (by simp at hfuel; omega)]
    simp only [Except.map, List.map_cons, List.length_append]
    congr 2
    omega

end Records

/-! ## Frames read back -/

section Frames

variable {header : FrameHeader} {records : List UInt8}

/-- The bytes the CRC covers. -/
def crcCovered (header : FrameHeader) (records : List UInt8) : List UInt8 :=
  encodeVarint header.sessionId.toNat ++ encodeVarint header.frameSeq.toNat ++ records

/-- The value of `frame_len`. -/
def frameLenOf (header : FrameHeader) (records : List UInt8) : ℕ :=
  varintLen header.sessionId.toNat + varintLen header.frameSeq.toNat + records.length +
    if header.hasCrc then 2 else 0

/-- The CRC bytes closing the frame. -/
def crcBytes (header : FrameHeader) (records : List UInt8) : List UInt8 :=
  if header.hasCrc then toBE 2 (crc16Ccitt (crcCovered header records)).toNat else []

/-- `encode_frame` with its sizes named. -/
theorem encodeFrame_eq (bufLen : ℕ) :
    encodeFrame header records bufLen =
      if 3 + varintLen (frameLenOf header records) + frameLenOf header records > maxFrameSize then
        .error .frameTooLarge
      else if bufLen < 3 + varintLen (frameLenOf header records) + frameLenOf header records then
        .error .bufferTooSmall
      else
        .ok ([frameSync, header.version, header.flags] ++ encodeVarint (frameLenOf header records) ++
          crcCovered header records ++ crcBytes header records) := rfl

/-- What a successful `encode_frame` wrote. -/
theorem encodeFrame_eq_ok {bufLen : ℕ} {frame : List UInt8}
    (h : encodeFrame header records bufLen = .ok frame) :
    3 + varintLen (frameLenOf header records) + frameLenOf header records ≤ maxFrameSize ∧
      frame = [frameSync, header.version, header.flags] ++ encodeVarint (frameLenOf header records) ++
        crcCovered header records ++ crcBytes header records := by
  rw [encodeFrame_eq] at h
  split_ifs at h with hbig hbuf
  exact ⟨by omega, (Except.ok.inj h).symm⟩

theorem sessionId_lt (header : FrameHeader) : header.sessionId.toNat < 2 ^ 64 := by
  have := header.sessionId.toNat_lt
  omega

theorem frameSeq_lt (header : FrameHeader) : header.frameSeq.toNat < 2 ^ 64 := by
  have := header.frameSeq.toNat_lt
  omega

theorem length_crcCovered :
    (crcCovered header records).length =
      varintLen header.sessionId.toNat + varintLen header.frameSeq.toNat + records.length := by
  simp [crcCovered, length_encodeVarint (sessionId_lt header),
    length_encodeVarint (frameSeq_lt header)]
  omega

theorem length_crcBytes :
    (crcBytes header records).length = if header.hasCrc then 2 else 0 := by
  unfold crcBytes
  split_ifs <;> simp

/-- `decode_frame` reads back an encoded version-1 frame, whatever follows it. -/
theorem decodeFrame_encodeFrame (hv : header.version = frameVersion) {bufLen : ℕ}
    {frame : List UInt8} (henc : encodeFrame header records bufLen = .ok frame) (rest : List UInt8) :
    decodeFrame (frame ++ rest) = some (.ok ⟨header, records, frame.length⟩) := by
  obtain ⟨hsize, rfl⟩ := encodeFrame_eq_ok henc
  have hL : frameLenOf header records < 2 ^ 64 := by unfold maxFrameSize at hsize; omega
  have hV := length_encodeVarint hL
  have hS := length_encodeVarint (sessionId_lt header)
  have hQ := length_encodeVarint (frameSeq_lt header)
  have hC : (crcCovered header records).length = _ := length_crcCovered
  have hK : (crcBytes header records).length = _ := length_crcBytes
  have hLdef : frameLenOf header records = varintLen header.sessionId.toNat +
      varintLen header.frameSeq.toNat + records.length + (if header.hasCrc then 2 else 0) := rfl
  have h1 := one_le_varintLen header.sessionId.toNat
  have h2 := one_le_varintLen header.frameSeq.toNat
  have h3 := one_le_varintLen (frameLenOf header records)
  -- the frame's regions, as the decoder finds them
  set L := frameLenOf header records
  set V := encodeVarint L
  set S := encodeVarint header.sessionId.toNat
  set Q := encodeVarint header.frameSeq.toNat
  set K := crcBytes header records
  have hCdef : crcCovered header records = S ++ Q ++ records := rfl
  set C := crcCovered header records
  have hlen : ([frameSync, header.version, header.flags] ++ V ++ C ++ K ++ rest).length =
      3 + varintLen L + L + rest.length := by
    simp only [List.length_append, hV, hC, hK, hLdef]
    simp
    omega
  have hdrop3 : ([frameSync, header.version, header.flags] ++ V ++ C ++ K ++ rest).drop 3 =
      V ++ (C ++ K ++ rest) := by
    simp
  have hdropS : ([frameSync, header.version, header.flags] ++ V ++ C ++ K ++ rest).drop
      (3 + varintLen L) = S ++ (Q ++ records ++ K ++ rest) := by
    rw [← List.drop_drop, hdrop3, ← hV, List.drop_left, hCdef]
    simp
  have hdropQ : ([frameSync, header.version, header.flags] ++ V ++ C ++ K ++ rest).drop
      (3 + varintLen L + varintLen header.sessionId.toNat) = Q ++ (records ++ K ++ rest) := by
    rw [← List.drop_drop, hdropS, ← hS, List.drop_left]
    simp
  have hrecs : ∀ crcLen, crcLen = (if header.hasCrc then 2 else 0) →
      slice? ([frameSync, header.version, header.flags] ++ V ++ C ++ K ++ rest)
        (3 + varintLen L + varintLen header.sessionId.toNat + varintLen header.frameSeq.toNat)
        (3 + varintLen L + L - crcLen) = some records := by
    intro crcLen hcrcLen
    have hpre : 3 + varintLen L + varintLen header.sessionId.toNat + varintLen header.frameSeq.toNat =
        ([frameSync, header.version, header.flags] ++ V ++ S ++ Q).length := by
      simp [hV, hS, hQ]
      omega
    have hend : 3 + varintLen L + L - crcLen =
        ([frameSync, header.version, header.flags] ++ V ++ S ++ Q).length + records.length := by
      rw [← hpre, hLdef, hcrcLen]
      omega
    rw [hpre, hend, hCdef]
    simpa using slice?_append_self ([frameSync, header.version, header.flags] ++ V ++ S ++ Q) records
      (K ++ rest)
  have hg0 : ([frameSync, header.version, header.flags] ++ V ++ C ++ K ++ rest).getD 0 0 = frameSync := by
    simp
  have hg1 : ([frameSync, header.version, header.flags] ++ V ++ C ++ K ++ rest).getD 1 0 =
      frameVersion := by
    simpa using hv
  have hg2 : ([frameSync, header.version, header.flags] ++ V ++ C ++ K ++ rest).getD 2 0 =
      header.flags := by
    simp
  have hfits : ¬ ([frameSync, header.version, header.flags] ++ V ++ C ++ K ++ rest).length <
      minFrameSize := by
    rw [hlen, hLdef]
    unfold minFrameSize
    omega
  have hLmax : ¬ L > maxFrameSize := by omega
  have hwhole : ¬ ([frameSync, header.version, header.flags] ++ V ++ C ++ K ++ rest).length <
      3 + varintLen L + L := by
    rw [hlen]
    omega
  have hdecV : decodeVarint (V ++ (C ++ K ++ rest)) = .ok (L, varintLen L) :=
    decodeVarint_encodeVarint hL _
  have hdecS : decodeVarintU16 (S ++ (Q ++ records ++ K ++ rest)) =
      .ok (header.sessionId, varintLen header.sessionId.toNat) :=
    decodeVarintU16_encodeVarint _ _
  have hdecQ : decodeVarintU32 (Q ++ (records ++ K ++ rest)) =
      .ok (header.frameSeq, varintLen header.frameSeq.toNat) :=
    decodeVarintU32_encodeVarint _ _
  have hframe : ([frameSync, header.version, header.flags] ++ V ++ C ++ K).length =
      3 + varintLen L + L := by
    simp only [List.length_append, hV, hC, hK, hLdef]
    simp
    omega
  by_cases hc : header.flags &&& crcPresent ≠ 0
  · have hcrc : header.hasCrc = true := by simp [FrameHeader.hasCrc, hc]
    have hKdef : K = toBE 2 (crc16Ccitt C).toNat := by
      show crcBytes header records = _
      rw [crcBytes, if_pos hcrc]
    have hpos : 3 + varintLen L + L - 2 = ([frameSync, header.version, header.flags] ++ V).length +
        C.length := by
      simp [hV, hC, hLdef, hcrc]
      omega
    have hcovered : slice? ([frameSync, header.version, header.flags] ++ V ++ C ++ K ++ rest)
        (3 + varintLen L) (3 + varintLen L + L - 2) = some C := by
      have hstart : 3 + varintLen L = ([frameSync, header.version, header.flags] ++ V).length := by
        simp [hV]
        omega
      rw [hpos, hstart, List.append_assoc _ K rest]
      exact slice?_append_self _ C (K ++ rest)
    have hstored : UInt16.ofNat (ofBE (field ([frameSync, header.version, header.flags] ++ V ++ C ++ K ++
        rest) (3 + varintLen L + L - 2) 2)) = crc16Ccitt C := by
      have hfield := field_append_self ([frameSync, header.version, header.flags] ++ V ++ C) K rest
      rw [hKdef, length_toBE] at hfield
      rw [hpos, ← List.length_append, hKdef, hfield, ofBE_toBE]
      apply UInt16.toNat_inj.mp
      rw [UInt16.toNat_ofNat', Nat.mod_eq_of_lt (by have := (crc16Ccitt C).toNat_lt; omega)]
      exact Nat.mod_eq_of_lt (by have := (crc16Ccitt C).toNat_lt; omega)
    simp only [decodeFrame, hfits, hg0, hg1, hg2, hdrop3, hdecV, hLmax, hwhole, hc, hcovered, hstored,
      verifyCrc16, hdropS, hdecS, hdropQ, hdecQ, if_true, if_false, ne_eq, not_false_eq_true,
      not_true_eq_false, hrecs 2 (by rw [hcrc]; rfl), hframe]
    simp [← hv]
  · have hcrc : header.hasCrc = false := by simpa [FrameHeader.hasCrc] using hc
    have hc0 : header.flags &&& crcPresent = 0 := not_not.mp hc
    simp only [decodeFrame, hfits, hg0, hg1, hg2, hdrop3, hdecV, hLmax, hwhole, hc0, hdropS, hdecS,
      hdropQ, hdecQ, if_false, ne_eq, not_true_eq_false, hrecs 0 (by rw [hcrc]; rfl), hframe]
    simp [← hv]

end Frames

/-- Records written one after another by `encode_record`. -/
theorem chunks_of_encodeRecord {recs : List (RecordHeader × List UInt8)} {chunks : List (List UInt8)}
    (h : List.Forall₂ (fun x chunk => ∃ bufLen, encodeRecord x.1 x.2 bufLen = .ok chunk) recs chunks) :
    chunks = recs.map (fun x => recordBytes x.1 x.2) ∧ ∀ x ∈ recs, x.2.length ≤ maxPayloadSize := by
  induction h with
  | nil => simp
  | cons hx _ ih =>
    obtain ⟨bufLen, hx⟩ := hx
    obtain ⟨hpay, rfl⟩ := encodeRecord_eq_ok hx
    refine ⟨by rw [ih.1, List.map_cons], ?_⟩
    intro y hy
    rcases List.mem_cons.mp hy with rfl | hy
    · exact hpay
    · exact ih.2 y hy

/-- `decode_records` reads back the records `encode_record` wrote one after another. -/
theorem decodeRecords_flatMap (recs : List (RecordHeader × List UInt8))
    (hpay : ∀ x ∈ recs, x.2.length ≤ maxPayloadSize) :
    decodeRecords (recs.flatMap fun x => recordBytes x.1 x.2) =
      .ok (recs.map (fun x => ⟨x.1, x.2, (recordBytes x.1 x.2).length⟩),
        (recs.flatMap fun x => recordBytes x.1 x.2).length) := by
  -- every record takes at least one byte, so the buffer's length is enough fuel
  have hfuel : recs.length ≤ (recs.flatMap fun x => recordBytes x.1 x.2).length := by
    induction recs with
    | nil => simp
    | cons x recs ih =>
      rw [List.flatMap_cons, List.length_append, List.length_cons,
        length_recordBytes (hpay x List.mem_cons_self)]
      have := ih (fun y hy => hpay y (List.mem_cons_of_mem _ hy))
      omega
  rw [decodeRecords, decodeRecordsLoop_flatMap recs hpay _ 0 hfuel, Nat.zero_add]

/-- Low-bandwidth frame and record round trip: for every version-1 frame header (any flags,
with or without CRC, any session id and frame sequence number) and every run of records that
`encode_record` wrote one after another, an encoded frame followed by anything decodes to that
header, that records region and the frame's length, and `decode_records` reads every record
back in order, consuming the whole region. -/
theorem frame_records_round_trip (header : FrameHeader) (hv : header.version = frameVersion)
    (recs : List (RecordHeader × List UInt8)) (chunks : List (List UInt8))
    (hrecs : List.Forall₂ (fun x chunk => ∃ bufLen, encodeRecord x.1 x.2 bufLen = .ok chunk) recs chunks)
    (bufLen : ℕ) (frame : List UInt8) (henc : encodeFrame header chunks.flatten bufLen = .ok frame)
    (rest : List UInt8) :
    decodeFrame (frame ++ rest) = some (.ok ⟨header, chunks.flatten, frame.length⟩) ∧
      ∃ decoded, decodeRecords chunks.flatten = .ok (decoded, chunks.flatten.length) ∧
        decoded.map (fun d => (d.header, d.payload)) = recs := by
  obtain ⟨hchunks, hpay⟩ := chunks_of_encodeRecord hrecs
  refine ⟨decodeFrame_encodeFrame hv henc rest,
    recs.map (fun x => ⟨x.1, x.2, (recordBytes x.1 x.2).length⟩), ?_, by simp [Function.comp_def]⟩
  rw [hchunks, ← List.flatMap_def, decodeRecords_flatMap recs hpay]

/-- Two records, one with a payload and one empty, in a frame with the CRC flag set: the
frame written into a 64-byte buffer decodes back to its header and both records. -/
theorem frame_records_round_trip_two_records :
    let header : FrameHeader := ⟨1, 1, 7, 300⟩
    let recs : List (RecordHeader × List UInt8) := [(⟨1, 0, 5⟩, [1, 2, 3]), (⟨2, 2, 200⟩, [])]
    let chunks : List (List UInt8) := [[1, 0, 5, 3, 1, 2, 3], [2, 2, 200, 1, 0]]
    let frame : List UInt8 := [0xA5, 1, 1, 17, 7, 172, 2, 1, 0, 5, 3, 1, 2, 3, 2, 2, 200, 1, 0, 0x70, 0xF0]
    header.version = frameVersion ∧
      List.Forall₂ (fun x chunk => ∃ bufLen, encodeRecord x.1 x.2 bufLen = .ok chunk) recs chunks ∧
      encodeFrame header chunks.flatten 64 = .ok frame ∧
      decodeFrame (frame ++ []) = some (.ok ⟨header, chunks.flatten, frame.length⟩) ∧
        ∃ decoded, decodeRecords chunks.flatten = .ok (decoded, chunks.flatten.length) ∧
          decoded.map (fun d => (d.header, d.payload)) = recs := by
  intro header recs chunks frame
  have hrecs : List.Forall₂ (fun x chunk => ∃ bufLen, encodeRecord x.1 x.2 bufLen = .ok chunk)
      recs chunks := .cons ⟨16, by decide⟩ (.cons ⟨16, by decide⟩ .nil)
  have henc : encodeFrame header chunks.flatten 64 = .ok frame := by decide +kernel
  exact ⟨rfl, hrecs, henc, frame_records_round_trip header rfl recs chunks hrecs 64 frame henc []⟩

/-! ## Hostile input

`decode_frame` checks that `frame_len` bytes follow the length varint, but not that they hold
the two header varints and the CRC: the CRC window `buf[crc_start..crc_offset]` starts after it
ends when `frame_len < 2`, and the records window `buf[offset..records_end]` does when the
header varints run past the declared frame. -/

/-- The part of `decode_frame` after the CRC check: the two header varints, then the records
slice. Every path through `decode_frame` that passes the check ends in it (`decodeFrame_eq_ok`). -/
def frameTail (buf : List UInt8) (version flags : UInt8) (crcStart frameLen crcLen : ℕ) :
    Option (Except FrameError DecodedFrame) := do
  let .ok (sessionId, sessionBytes) := decodeVarintU16 (buf.drop crcStart)
    | return .error .varintError
  let offset := crcStart + sessionBytes
  let .ok (frameSeq, seqBytes) := decodeVarintU32 (buf.drop offset) | return .error .varintError
  let offset := offset + seqBytes
  let recordsEnd := crcStart + frameLen - crcLen
  let records ← slice? buf offset recordsEnd
  return .ok ⟨⟨version, flags, sessionId, frameSeq⟩, records, crcStart + frameLen⟩

theorem frameTail_eq_ok {buf : List UInt8} {version flags : UInt8} {crcStart frameLen crcLen : ℕ}
    {f : DecodedFrame} (h : frameTail buf version flags crcStart frameLen crcLen = some (.ok f)) :
    f.consumed = crcStart + frameLen ∧
      ∃ start, crcStart ≤ start ∧ slice? buf start (crcStart + frameLen - crcLen) = some f.records := by
  unfold frameTail at h
  cases hS : decodeVarintU16 (buf.drop crcStart) with
  | error e => rw [hS] at h; cases h
  | ok p =>
  obtain ⟨sessionId, sessionBytes⟩ := p
  rw [hS] at h
  cases hQ : decodeVarintU32 (buf.drop (crcStart + sessionBytes)) with
  | error e => simp only [hQ] at h; cases h
  | ok q =>
  obtain ⟨frameSeq, seqBytes⟩ := q
  simp only [hQ] at h
  cases hR : slice? buf (crcStart + sessionBytes + seqBytes) (crcStart + frameLen - crcLen) with
  | none => simp [hR] at h
  | some records =>
  rw [hR] at h
  cases Except.ok.inj (Option.some.inj h)
  exact ⟨rfl, _, by omega, hR⟩

/-- What an accepted frame is made of: the declared length, and a records window inside the
declared frame. -/
theorem decodeFrame_eq_ok {buf : List UInt8} {f : DecodedFrame}
    (h : decodeFrame buf = some (.ok f)) :
    ∃ frameLen lenBytes, decodeVarint (buf.drop 3) = .ok (frameLen, lenBytes) ∧
      3 + lenBytes + frameLen ≤ buf.length ∧ f.consumed = 3 + lenBytes + frameLen ∧
      ∃ crcLen start, 3 + lenBytes ≤ start ∧
        slice? buf start (3 + lenBytes + frameLen - crcLen) = some f.records := by
  unfold decodeFrame at h
  by_cases h0 : buf.length < minFrameSize
  · rw [if_pos h0] at h; cases h
  rw [if_neg h0] at h
  by_cases h1 : buf.getD 0 0 ≠ frameSync
  · rw [if_pos h1] at h; cases h
  rw [if_neg h1] at h
  by_cases h2 : buf.getD 1 0 ≠ frameVersion
  · rw [if_pos h2] at h; cases h
  rw [if_neg h2] at h
  cases hV : decodeVarint (buf.drop 3) with
  | error e => rw [hV] at h; cases h
  | ok p =>
  obtain ⟨frameLen, lenBytes⟩ := p
  rw [hV] at h
  dsimp only at h
  by_cases h3 : frameLen > maxFrameSize
  · rw [if_pos h3] at h; cases h
  rw [if_neg h3] at h
  by_cases h4 : buf.length < 3 + lenBytes + frameLen
  · rw [if_pos h4] at h; cases h
  rw [if_neg h4] at h
  -- the source writes the tail out once per way past the CRC check; each copy is `frameTail`
  have htail : frameTail buf (buf.getD 1 0) (buf.getD 2 0) (3 + lenBytes) frameLen
      (if buf.getD 2 0 &&& crcPresent ≠ 0 then 2 else 0) = some (.ok f) := by
    by_cases hc : buf.getD 2 0 &&& crcPresent ≠ 0
    · rw [if_pos hc, if_pos hc] at h
      rw [if_pos hc]
      cases hcov : slice? buf (3 + lenBytes) (3 + lenBytes + frameLen - 2) with
      | none => rw [hcov] at h; cases h
      | some covered =>
        rw [hcov] at h
        change (if (!verifyCrc16 covered
            (UInt16.ofNat (ofBE (field buf (3 + lenBytes + frameLen - 2) 2)))) = true then
          (if crc16Ccitt covered ≠ UInt16.ofNat (ofBE (field buf (3 + lenBytes + frameLen - 2) 2))
            then some (.error .crcMismatch)
            else frameTail buf (buf.getD 1 0) (buf.getD 2 0) (3 + lenBytes) frameLen 2)
          else frameTail buf (buf.getD 1 0) (buf.getD 2 0) (3 + lenBytes) frameLen 2) = _ at h
        split_ifs at h
        · cases h
        · exact h
        · exact h
    · rw [if_neg hc, if_neg hc] at h
      rw [if_neg hc]
      exact h
  obtain ⟨hconsumed, start, hstart, hslice⟩ := frameTail_eq_ok htail
  exact ⟨frameLen, lenBytes, rfl, by omega, hconsumed, _, start, hstart, hslice⟩

/-- `decode_record` only slices inside its input. -/
theorem decodeRecord_consumed_le {buf : List UInt8} {r : DecodedRecord}
    (h : decodeRecord buf = .ok r) : r.consumed ≤ buf.length := by
  unfold decodeRecord at h
  by_cases h0 : buf.length < 4
  · rw [if_pos h0] at h; cases h
  rw [if_neg h0] at h
  cases hQ : decodeVarintU32 (buf.drop 2) with
  | error e => simp [hQ, Except.mapError] at h; cases h
  | ok q =>
  obtain ⟨msgSeq, seqBytes⟩ := q
  simp only [hQ, Except.mapError, bind, Except.bind] at h
  cases hL : decodeVarint (buf.drop (2 + seqBytes)) with
  | error e => simp only [hL] at h; cases h
  | ok l =>
  obtain ⟨len, lenBytes⟩ := l
  simp only [hL] at h
  by_cases h3 : maxPayloadSize < len
  · rw [if_pos h3] at h; cases h
  rw [if_neg h3] at h
  by_cases h4 : buf.length < 2 + seqBytes + lenBytes + len
  · rw [if_pos h4] at h; cases h
  rw [if_neg h4] at h
  cases h
  dsimp only
  omega

/-- The loop of `decode_records` never reports more bytes than it was given. -/
theorem decodeRecordsLoop_le :
    ∀ (fuel : ℕ) (rest : List UInt8) (offset : ℕ) {records : List DecodedRecord} {consumed : ℕ},
      decodeRecordsLoop fuel rest offset = .ok (records, consumed) → consumed ≤ offset + rest.length
  | 0, _, offset, _, _, h => by cases h; omega
  | _ + 1, [], offset, _, _, h => by cases h; omega
  | fuel + 1, b :: bs, offset, records, consumed, h => by
    rw [decodeRecordsLoop] at h
    split at h
    · rename_i record hrec
      have hle := decodeRecord_consumed_le hrec
      cases hloop : decodeRecordsLoop fuel ((b :: bs).drop record.consumed)
          (offset + record.consumed) with
      | error e => rw [hloop] at h; cases h
      | ok p =>
        rw [hloop] at h
        cases h
        have := decodeRecordsLoop_le fuel _ _ hloop
        rw [List.length_drop] at this
        omega
    · -- a truncated record ends the loop where it started
      split at h
      · cases h; omega
      · cases h
    · cases h

/-- **The frame decoder panics on short declared lengths.** What `decode_frame` accepts lies
inside the buffer: the frame it reports consumed fits, and its records are a window of the
declared frame; `decode_records` reports at most the bytes it was given. But a frame with the
CRC flag whose `frame_len` is 0 or 1 makes `decode_frame` slice `buf[crc_start..crc_offset]`
backwards, and one without it whose `frame_len` leaves no room for the two header varints
makes it slice `buf[offset..records_end]` backwards: both panic. -/
theorem decode_frame_panics_on_short_declared_length :
    (∀ (buf : List UInt8) (f : DecodedFrame), decodeFrame buf = some (.ok f) →
      f.consumed ≤ buf.length ∧ ∃ frameLen lenBytes start,
        decodeVarint (buf.drop 3) = .ok (frameLen, lenBytes) ∧
        f.consumed = 3 + lenBytes + frameLen ∧ 3 + lenBytes ≤ start ∧
        start + f.records.length ≤ f.consumed ∧ f.records = field buf start f.records.length) ∧
    (∀ (buf : List UInt8) (records : List DecodedRecord) (consumed : ℕ),
      decodeRecords buf = .ok (records, consumed) → consumed ≤ buf.length) ∧
    (∀ (flags len : UInt8) (rest : List UInt8), flags &&& crcPresent ≠ 0 → len.toNat < 2 →
      rest ≠ [] → decodeFrame (frameSync :: frameVersion :: flags :: len :: rest) = none) ∧
    (∀ (flags len a b : UInt8) (rest : List UInt8), flags &&& crcPresent = 0 → len.toNat < 2 →
      a.toNat < 128 → b.toNat < 128 →
      decodeFrame (frameSync :: frameVersion :: flags :: len :: a :: b :: rest) = none) := by
  refine ⟨fun buf f h => ?_, fun buf records consumed h => ?_, fun flags len rest hc hlen hrest => ?_,
    fun flags len a b rest hc hlen ha hb => ?_⟩
  · obtain ⟨frameLen, lenBytes, hV, hfits, hconsumed, crcLen, start, hstart, hslice⟩ :=
      decodeFrame_eq_ok h
    obtain ⟨hle, hend, hrec⟩ := slice?_eq_some hslice
    have hlen : f.records.length = 3 + lenBytes + frameLen - crcLen - start := by
      rw [hrec, field, List.length_take, List.length_drop]
      omega
    refine ⟨by omega, frameLen, lenBytes, start, hV, hconsumed, hstart, by omega, ?_⟩
    rw [hlen]
    exact hrec
  · have := decodeRecordsLoop_le buf.length buf 0 h
    omega
  · -- `crc_offset = offset + frame_len - 2` lies before `crc_start = offset`
    have hpos : 0 < rest.length := List.length_pos_iff.mpr hrest
    have hcov : slice? (frameSync :: frameVersion :: flags :: len :: rest) (3 + 1)
        (3 + 1 + len.toNat - 2) = none := by
      rw [slice?, if_neg (by omega)]
    unfold decodeFrame
    simp only [List.length_cons, List.getD_cons_zero, List.getD_cons_succ, List.drop_succ_cons,
      List.drop_zero, decodeVarint_cons_of_lt (show len.toNat < 128 by omega)]
    rw [if_neg (by unfold minFrameSize; omega), if_neg (by simp), if_neg (by simp),
      if_neg (by unfold maxFrameSize; omega), if_neg (by omega), if_pos hc, hcov]
    rfl
  · -- the header varints end at byte 6, past `records_end = 4 + frame_len`
    have hrecs : slice? (frameSync :: frameVersion :: flags :: len :: a :: b :: rest) (3 + 1 + 1 + 1)
        (3 + 1 + len.toNat - 0) = none := by
      rw [slice?, if_neg (by omega)]
    unfold decodeFrame
    simp only [List.length_cons, List.getD_cons_zero, List.getD_cons_succ, List.drop_succ_cons,
      List.drop_zero, decodeVarint_cons_of_lt (show len.toNat < 128 by omega)]
    rw [if_neg (by unfold minFrameSize; omega), if_neg (by simp), if_neg (by simp),
      if_neg (by unfold maxFrameSize; omega), if_neg (by omega), if_neg (not_not.mpr hc)]
    simp only [decodeVarintU16_cons_of_lt ha, List.drop_succ_cons, List.drop_zero,
      decodeVarintU32_cons_of_lt hb]
    rw [if_neg (not_not.mpr hc), hrecs]
    rfl

/-- Five bytes with the CRC flag and `frame_len = 0`, and six without it. -/
theorem decode_frame_panics_on_five_and_six_bytes :
    decodeFrame [0xA5, 1, 1, 0, 0] = none ∧ decodeFrame [0xA5, 1, 0, 0, 0, 0] = none :=
  ⟨decode_frame_panics_on_short_declared_length.2.2.1 1 0 [0] (by decide) (by decide)
      (List.cons_ne_nil _ _),
    decode_frame_panics_on_short_declared_length.2.2.2 0 0 0 0 [] (by decide) (by decide)
      (by decide) (by decide)⟩

end Hdds.Lowbw
