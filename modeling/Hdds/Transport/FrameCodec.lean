import Hdds.Foundations.Bytes
import Hdds.Foundations.Reading

/-! # Length-prefix framing for RTPS over TCP

`transport/tcp/frame_codec.rs`: a frame is the payload's length as a big-endian `u32`, then the
payload. `FrameCodec` takes frames back out of a stream in two ways: `decode` reads from a
`Read` until a frame is complete or the reader would block, `feed` and `decodeBuffered` take the
stream from an accumulator that the caller fills. Both keep their progress through the current
frame in a `ReadState` and one buffer that is resized between header and body.

* `Tracks c todo input`: the codec is part way through the encoding of the payloads `todo`,
  with `input` the bytes it has not taken yet. Each transition of either decoder keeps it, and a
  frame is given back exactly when its last byte is taken.
* `decode_round_trip` and `decodeBuffered_round_trip`: however the encoded batch is cut into
  chunks, and however the chunks are interleaved with `WouldBlock` and `Interrupted` or with
  calls, the codec gives back the payloads in order and counts them.
-/

namespace Hdds.Transport
open Wire Reading
set_option autoImplicit false

/-- `FRAME_HEADER_SIZE`. -/
def frameHeaderSize : ℕ := 4

/-- `DEFAULT_MAX_MESSAGE_SIZE`. -/
def defaultMaxMessageSize : ℕ := 16 * 1024 * 1024

/-- `ReadState`. The count of bytes read is below the size of what is being read: every
transition of the codec keeps it so. -/
inductive ReadState
  | readingLength (bytesRead : Fin frameHeaderSize)
  | readingBody (expectedLen : ℕ) (bytesRead : Fin expectedLen)
  deriving DecidableEq

namespace ReadState

/-- `ReadState::default()`. -/
def default : ReadState := .readingLength ⟨0, by decide⟩

/-- The length of the codec's buffer in this state. -/
def bufferLen : ReadState → ℕ
  | .readingLength _ => frameHeaderSize
  | .readingBody expectedLen _ => expectedLen

/-- The header is read before the body. -/
def rank : ReadState → ℕ
  | .readingLength _ => 1
  | .readingBody _ _ => 0

@[simp] theorem bufferLen_default : default.bufferLen = frameHeaderSize := rfl

end ReadState

/-- `FrameCodec`. The buffer has the length the state reads into, and the read position of the
accumulator lies inside it: the slices the source takes of both never panic. -/
structure FrameCodec where
  state : ReadState
  buffer : List UInt8
  maxSize : ℕ
  framesDecoded : ℕ
  bytesDecoded : ℕ
  framesRejected : ℕ
  accumulator : List UInt8
  accumulatorPos : ℕ
  buffer_length : buffer.length = state.bufferLen
  accumulatorPos_le : accumulatorPos ≤ accumulator.length

/-- `FrameCodec::encode`: `payload.len() as u32` big-endian, then the payload. -/
def encode (payload : List UInt8) : List UInt8 :=
  toBE 4 (payload.length % 2 ^ 32) ++ payload

/-- `FrameCodec::encode_into`. -/
def encodeInto (payload : List UInt8) (buf : List UInt8) : List UInt8 :=
  buf ++ toBE 4 (payload.length % 2 ^ 32) ++ payload

/-- `FrameCodec::encode_batch`. -/
def encodeBatch (payloads : List (List UInt8)) : List UInt8 :=
  payloads.foldl (fun buf payload => encodeInto payload buf) []

/-- `u32::from_be_bytes([buffer[0], buffer[1], buffer[2], buffer[3]]) as usize`. -/
def headerLen (buffer : List UInt8) : ℕ := ofBE (buffer.take 4)

/-- The error `decode` gives for a header over `max_size`. -/
def frameTooLarge (len maxSize : ℕ) : ReadError :=
  ⟨.invalidData, "frame too large: " ++ toString len ++ " bytes (max " ++ toString maxSize ++ ")"⟩

namespace FrameCodec

/-- `FrameCodec::new`. -/
def new (maxSize : ℕ) : FrameCodec where
  state := .default
  buffer := List.replicate frameHeaderSize 0
  maxSize := maxSize
  framesDecoded := 0
  bytesDecoded := 0
  framesRejected := 0
  accumulator := []
  accumulatorPos := 0
  buffer_length := List.length_replicate
  accumulatorPos_le := Nat.zero_le _

/-- `FrameCodec::with_default_max`. -/
def withDefaultMax : FrameCodec := new defaultMaxMessageSize

/-- `FrameCodec::reset`. -/
def reset (c : FrameCodec) : FrameCodec :=
  { c with state := .default, buffer := resize c.buffer frameHeaderSize 0,
           buffer_length := length_resize _ _ _ }

/-- `FrameCodec::is_partial`. -/
def isPartial (c : FrameCodec) : Bool :=
  match c.state with
  | .readingLength bytesRead => 0 < bytesRead.val
  | .readingBody _ _ => true

/-- `FrameCodec::bytes_needed`. -/
def bytesNeeded (c : FrameCodec) : ℕ :=
  match c.state with
  | .readingLength bytesRead => frameHeaderSize - bytesRead
  | .readingBody expectedLen bytesRead => expectedLen - bytesRead

/-- `FrameCodec::has_buffered_data`. -/
def hasBufferedData (c : FrameCodec) : Bool := c.accumulatorPos < c.accumulator.length

/-! ## The steps both decoders share -/

/-- The bytes a read or a copy writes into the buffer at `offset`. -/
def writeBuffer (c : FrameCodec) (offset : ℕ) (bytes : List UInt8)
    (h : offset + bytes.length ≤ c.state.bufferLen) : FrameCodec :=
  { c with buffer := writeAt c.buffer offset bytes,
           buffer_length := (length_writeAt (c.buffer_length ▸ h)).trans c.buffer_length }

/-- A new state that reads into a buffer of the same length. -/
def setState (c : FrameCodec) (s : ReadState) (h : s.bufferLen = c.state.bufferLen) :
    FrameCodec :=
  { c with state := s, buffer_length := c.buffer_length.trans h.symm }

/-- `accumulator_pos += needed`. -/
def advance (c : FrameCodec) (needed : ℕ) (h : c.accumulatorPos + needed ≤ c.accumulator.length) :
    FrameCodec :=
  { c with accumulatorPos := c.accumulatorPos + needed, accumulatorPos_le := h }

/-- A header over `max_size`: `frames_rejected += 1; state = ReadState::default()`. -/
def rejectFrame (c : FrameCodec) (h : c.state.bufferLen = frameHeaderSize) : FrameCodec :=
  { c.setState .default h.symm with framesRejected := c.framesRejected + 1 }

/-- A header of length zero: `frames_decoded += 1; state = ReadState::default()`. -/
def emptyFrame (c : FrameCodec) (h : c.state.bufferLen = frameHeaderSize) : FrameCodec :=
  { c.setState .default h.symm with framesDecoded := c.framesDecoded + 1 }

/-- `buffer.resize(len, 0); state = ReadingBody { expected_len: len, bytes_read: 0 }`. -/
def startBody (c : FrameCodec) (len : ℕ) (h : 0 < len) : FrameCodec :=
  { c with state := .readingBody len ⟨0, h⟩, buffer := resize c.buffer len 0,
           buffer_length := length_resize _ _ _ }

/-- A complete body: the message `buffer[..expected_len]`, the counters, and the buffer and
state back to those of a header. -/
def finishBody (c : FrameCodec) (expectedLen : ℕ) : List UInt8 × FrameCodec :=
  (c.buffer.take expectedLen,
    { c with framesDecoded := c.framesDecoded + 1, bytesDecoded := c.bytesDecoded + expectedLen,
             buffer := resize c.buffer frameHeaderSize 0, state := .default,
             buffer_length := length_resize _ _ _ })

section Fields

variable (c : FrameCodec)

@[simp] theorem state_writeBuffer (offset : ℕ) (bytes : List UInt8) (h) :
    (c.writeBuffer offset bytes h).state = c.state := rfl
@[simp] theorem buffer_writeBuffer (offset : ℕ) (bytes : List UInt8) (h) :
    (c.writeBuffer offset bytes h).buffer = writeAt c.buffer offset bytes := rfl
@[simp] theorem state_setState (s : ReadState) (h) : (c.setState s h).state = s := rfl
@[simp] theorem buffer_setState (s : ReadState) (h) : (c.setState s h).buffer = c.buffer := rfl
@[simp] theorem state_startBody (len : ℕ) (h) :
    (c.startBody len h).state = .readingBody len ⟨0, h⟩ := rfl
@[simp] theorem buffer_startBody (len : ℕ) (h) :
    (c.startBody len h).buffer = resize c.buffer len 0 := rfl
@[simp] theorem state_emptyFrame (h) : (c.emptyFrame h).state = .default := rfl
@[simp] theorem state_rejectFrame (h) : (c.rejectFrame h).state = .default := rfl
@[simp] theorem state_finishBody (expectedLen : ℕ) :
    (c.finishBody expectedLen).2.state = .default := rfl
@[simp] theorem framesDecoded_writeBuffer (offset : ℕ) (bytes : List UInt8) (h) :
    (c.writeBuffer offset bytes h).framesDecoded = c.framesDecoded := rfl
@[simp] theorem bytesDecoded_writeBuffer (offset : ℕ) (bytes : List UInt8) (h) :
    (c.writeBuffer offset bytes h).bytesDecoded = c.bytesDecoded := rfl
@[simp] theorem framesDecoded_setState (s : ReadState) (h) :
    (c.setState s h).framesDecoded = c.framesDecoded := rfl
@[simp] theorem bytesDecoded_setState (s : ReadState) (h) :
    (c.setState s h).bytesDecoded = c.bytesDecoded := rfl
@[simp] theorem framesDecoded_startBody (len : ℕ) (h) :
    (c.startBody len h).framesDecoded = c.framesDecoded := rfl
@[simp] theorem bytesDecoded_startBody (len : ℕ) (h) :
    (c.startBody len h).bytesDecoded = c.bytesDecoded := rfl
@[simp] theorem framesDecoded_emptyFrame (h) :
    (c.emptyFrame h).framesDecoded = c.framesDecoded + 1 := rfl
@[simp] theorem bytesDecoded_emptyFrame (h) : (c.emptyFrame h).bytesDecoded = c.bytesDecoded := rfl
@[simp] theorem framesDecoded_finishBody (expectedLen : ℕ) :
    (c.finishBody expectedLen).2.framesDecoded = c.framesDecoded + 1 := rfl
@[simp] theorem bytesDecoded_finishBody (expectedLen : ℕ) :
    (c.finishBody expectedLen).2.bytesDecoded = c.bytesDecoded + expectedLen := rfl
@[simp] theorem fst_finishBody (expectedLen : ℕ) :
    (c.finishBody expectedLen).1 = c.buffer.take expectedLen := rfl
@[simp] theorem state_advance (n : ℕ) (h) : (c.advance n h).state = c.state := rfl
@[simp] theorem buffer_advance (n : ℕ) (h) : (c.advance n h).buffer = c.buffer := rfl

end Fields

/-! ## Reading from a `Read` -/

section Decode

variable {ρ : Type} (R : Reader ρ)

/-- `FrameCodec::decode`: read until a frame is complete (`Ok(Some(..))`) or the reader would
block (`Ok(None)`), retrying when it is interrupted. A read of no bytes is the end of the
stream. -/
def decode (c : FrameCodec) (r : ρ) : Except ReadError (Option (List UInt8)) × FrameCodec × ρ :=
  match hstate : c.state with
  | .readingLength bytesRead =>
    match hread : R.read r (frameHeaderSize - bytesRead) with
    | (.ok bytes, r') =>
      if hzero : bytes.length = 0 then
        if bytesRead.val = 0 then (.error ⟨.unexpectedEof, "connection closed"⟩, c, r')
        else (.error ⟨.unexpectedEof, "incomplete frame header"⟩, c, r')
      else
        have hfit : bytesRead + bytes.length ≤ c.state.bufferLen := by
          have := R.read_le r _ bytes (by rw [hread])
          rw [hstate, ReadState.bufferLen]
          omega
        let c₁ := c.writeBuffer bytesRead bytes hfit
        have hlen₁ : c₁.state.bufferLen = frameHeaderSize := by
          simp only [c₁, writeBuffer, hstate, ReadState.bufferLen]
        if htotal : bytesRead + bytes.length < frameHeaderSize then
          decode (c₁.setState (.readingLength ⟨_, htotal⟩) hlen₁.symm) r'
        else
          let len := headerLen c₁.buffer
          if len > c.maxSize then
            (.error (frameTooLarge len c.maxSize), c₁.rejectFrame hlen₁, r')
          else if hempty : len = 0 then
            (.ok (some []), c₁.emptyFrame hlen₁, r')
          else
            decode (c₁.startBody len (Nat.pos_of_ne_zero hempty)) r'
    | (.error e, r') =>
      if e.kind = .wouldBlock then (.ok none, c, r')
      else if hint : e.kind = .interrupted then decode c r'
      else (.error e, c, r')
  | .readingBody expectedLen bytesRead =>
    match hread : R.read r (expectedLen - bytesRead) with
    | (.ok bytes, r') =>
      if hzero : bytes.length = 0 then
        (.error ⟨.unexpectedEof, "incomplete frame body"⟩, c, r')
      else
        have hfit : bytesRead + bytes.length ≤ c.state.bufferLen := by
          have := R.read_le r _ bytes (by rw [hread])
          rw [hstate, ReadState.bufferLen]
          omega
        let c₁ := c.writeBuffer bytesRead bytes hfit
        if htotal : bytesRead + bytes.length < expectedLen then
          decode (c₁.setState (.readingBody expectedLen ⟨_, htotal⟩)
            (by simp only [c₁, writeBuffer, hstate, ReadState.bufferLen])) r'
        else
          let (message, c₂) := c₁.finishBody expectedLen
          (.ok (some message), c₂, r')
    | (.error e, r') =>
      if e.kind = .wouldBlock then (.ok none, c, r')
      else if hint : e.kind = .interrupted then decode c r'
      else (.error e, c, r')
termination_by (c.state.rank, c.bytesNeeded, R.interrupts r)
decreasing_by
  · -- more of the header
    dsimp only [setState, writeBuffer, bytesNeeded, ReadState.rank]
    simp only [Prod.lex_def, hstate, lt_self_iff_false, true_and, false_or]
    omega
  · -- the header announces a body
    dsimp only [startBody, writeBuffer, ReadState.rank]
    simp only [Prod.lex_def, hstate]
    omega
  · -- interrupted: the reader moves on
    have hlt := R.interrupts_lt r _ e (by rw [hread]) hint
    rw [hread] at hlt
    exact Prod.Lex.right _ (Prod.Lex.right _ hlt)
  · -- more of the body
    dsimp only [setState, writeBuffer, bytesNeeded, ReadState.rank]
    simp only [Prod.lex_def, hstate, lt_self_iff_false, true_and, false_or]
    omega
  · have hlt := R.interrupts_lt r _ e (by rw [hread]) hint
    rw [hread] at hlt
    exact Prod.Lex.right _ (Prod.Lex.right _ hlt)

/-- `n` calls of `decode` one after the other, with what each gave back. -/
def decodeCalls : ℕ → FrameCodec → ρ → List (Except ReadError (Option (List UInt8))) × FrameCodec × ρ
  | 0, c, r => ([], c, r)
  | n + 1, c, r =>
    let call := decode R c r
    let calls := decodeCalls n call.2.1 call.2.2
    (call.1 :: calls.1, calls.2)

end Decode

/-! ## Reading from the accumulator -/

/-- `accumulator.drain(..accumulator_pos); accumulator_pos = 0`. -/
def compact (c : FrameCodec) : FrameCodec :=
  { c with accumulator := c.accumulator.drop c.accumulatorPos, accumulatorPos := 0,
           accumulatorPos_le := Nat.zero_le _ }

/-- `&accumulator[accumulator_pos..]`: the bytes fed and not read yet. -/
def available (c : FrameCodec) : List UInt8 := c.accumulator.drop c.accumulatorPos

/-- `FrameCodec::feed`: compact the accumulator once more than half of it is read, then append
`data`. -/
def feed (c : FrameCodec) (data : List UInt8) : FrameCodec :=
  let c₁ := if 0 < c.accumulatorPos ∧ c.accumulator.length / 2 < c.accumulatorPos then c.compact
    else c
  { c₁ with accumulator := c₁.accumulator ++ data,
            accumulatorPos_le := c₁.accumulatorPos_le.trans (by simp) }

/-- `FrameCodec::decode_buffered`: copy a whole header, then a whole body, out of the bytes of the
accumulator not read yet, and give back the message; `none` as soon as the next part is not all
there. A header over `max_size` is counted and reading goes on after it. -/
def decodeBuffered (c : FrameCodec) : Option (List UInt8) × FrameCodec :=
  match hstate : c.state with
  | .readingLength bytesRead =>
    let needed := frameHeaderSize - bytesRead
    if havail : c.available.length < needed then (none, c)
    else
      have hfit : bytesRead + (c.available.take needed).length ≤ c.state.bufferLen := by
        rw [hstate, ReadState.bufferLen, List.length_take]
        omega
      have hpos : c.accumulatorPos + needed ≤ c.accumulator.length := by
        simp only [available, List.length_drop] at havail
        omega
      let c₁ := (c.writeBuffer bytesRead (c.available.take needed) hfit).advance needed hpos
      have hlen₁ : c₁.state.bufferLen = frameHeaderSize := by
        simp only [c₁, advance, writeBuffer, hstate, ReadState.bufferLen]
      let len := headerLen c₁.buffer
      if len > c.maxSize then decodeBuffered (c₁.rejectFrame hlen₁)
      else if hempty : len = 0 then (some [], c₁.emptyFrame hlen₁)
      else decodeBuffered (c₁.startBody len (Nat.pos_of_ne_zero hempty))
  | .readingBody expectedLen bytesRead =>
    let needed := expectedLen - bytesRead
    if havail : c.available.length < needed then (none, c)
    else
      have hfit : bytesRead + (c.available.take needed).length ≤ c.state.bufferLen := by
        rw [hstate, ReadState.bufferLen, List.length_take]
        omega
      have hpos : c.accumulatorPos + needed ≤ c.accumulator.length := by
        simp only [available, List.length_drop] at havail
        omega
      let c₁ := (c.writeBuffer bytesRead (c.available.take needed) hfit).advance needed hpos
      let (message, c₂) := c₁.finishBody expectedLen
      (some message, c₂)
termination_by c.accumulator.length - c.accumulatorPos
decreasing_by
  all_goals
    dsimp only [rejectFrame, startBody, setState, advance, writeBuffer]
    have := bytesRead.isLt
    omega

/-- What the caller of a buffered codec does: feed it bytes, or ask it for a frame. -/
inductive Call
  | feed (data : List UInt8)
  | decodeBuffered

/-- The bytes a call feeds. -/
def Call.fed : Call → List UInt8
  | .feed data => data
  | .decodeBuffered => []

/-- The calls one after the other, with what each `decode_buffered` gave back. -/
def runCalls : FrameCodec → List Call → List (Option (List UInt8)) × FrameCodec
  | c, [] => ([], c)
  | c, .feed data :: calls => runCalls (c.feed data) calls
  | c, .decodeBuffered :: calls =>
    (c.decodeBuffered.1 :: (runCalls c.decodeBuffered.2 calls).1,
      (runCalls c.decodeBuffered.2 calls).2)

end FrameCodec

/-! ## Encoding -/

theorem foldl_encodeInto (payloads : List (List UInt8)) (buf : List UInt8) :
    payloads.foldl (fun buf payload => encodeInto payload buf) buf =
      buf ++ payloads.flatMap encode := by
  induction payloads generalizing buf with
  | nil => simp
  | cons p ps ih =>
    rw [List.foldl_cons, ih, List.flatMap_cons, encodeInto, encode]
    simp only [List.append_assoc]

@[simp] theorem encodeBatch_nil : encodeBatch [] = [] := rfl

@[simp] theorem encodeBatch_cons (p : List UInt8) (ps : List (List UInt8)) :
    encodeBatch (p :: ps) = encode p ++ encodeBatch ps := by
  rw [encodeBatch, foldl_encodeInto, encodeBatch, foldl_encodeInto, List.flatMap_cons]
  rfl

/-- The header of a payload that fits a `u32` reads back as its length. -/
theorem headerLen_encode {p : List UInt8} (h : p.length < 2 ^ 32) (rest : List UInt8) :
    headerLen (toBE 4 (p.length % 2 ^ 32) ++ rest) = p.length := by
  rw [headerLen, List.take_left' (length_toBE 4 _), ofBE_toBE]
  omega

/-! ## The codec part way through a batch -/

namespace FrameCodec

/-- The bytes of the current frame the codec holds: the header bytes read so far, or the header
of the body being read and the body bytes read so far. -/
def held (c : FrameCodec) : List UInt8 :=
  match c.state with
  | .readingLength bytesRead => c.buffer.take bytesRead
  | .readingBody expectedLen bytesRead => toBE 4 (expectedLen % 2 ^ 32) ++ c.buffer.take bytesRead

/-- The codec is part way through the encoding of the payloads `todo`: what it holds of the
current frame, then the bytes `input` it has not taken yet, spell that encoding; every payload
still to come fits; and a body being read is the body of the next payload. -/
structure Tracks (c : FrameCodec) (todo : List (List UInt8)) (input : List UInt8) : Prop where
  stream : c.held ++ input = encodeBatch todo
  fits : ∀ p ∈ todo, p.length ≤ c.maxSize ∧ p.length < 2 ^ 32
  body : ∀ expectedLen bytesRead, c.state = .readingBody expectedLen bytesRead →
    ∃ p rest, todo = p :: rest ∧ p.length = expectedLen

theorem tracks_new {maxSize : ℕ} {payloads : List (List UInt8)}
    (hfits : ∀ p ∈ payloads, p.length ≤ maxSize ∧ p.length < 2 ^ 32) :
    Tracks (new maxSize) payloads (encodeBatch payloads) where
  stream := by simp [held, new, ReadState.default]
  fits := hfits
  body := by simp [new, ReadState.default]

/-- Fewer bytes to come than the current part of the frame still needs: no payload is to come. -/
theorem Tracks.todo_eq_nil_of_lt {c : FrameCodec} {todo : List (List UInt8)} {input : List UInt8}
    (ht : Tracks c todo input) (hlt : input.length < c.bytesNeeded) : todo = [] := by
  obtain _ | ⟨p, rest⟩ := todo
  · rfl
  have hlen := congrArg List.length ht.stream
  have hbuf := c.buffer_length
  simp only [held, List.length_append, encodeBatch_cons, encode, length_toBE] at hlen
  -- what the codec holds and the bytes to come are shorter than the frame of `p`
  match hstate : c.state with
  | .readingLength bytesRead =>
    simp only [bytesNeeded, hstate, List.length_take] at hlen hlt
    have := bytesRead.isLt
    simp only [frameHeaderSize] at this hlt
    omega
  | .readingBody expectedLen bytesRead =>
    obtain ⟨q, rest', hq, hlenq⟩ := ht.body _ _ hstate
    cases hq
    simp only [bytesNeeded, hstate, List.length_append, length_toBE, List.length_take] at hlen hlt
    have := bytesRead.isLt
    omega

theorem bytesNeeded_pos (c : FrameCodec) : 0 < c.bytesNeeded := by
  unfold bytesNeeded
  split
  · rename_i bytesRead _
    exact Nat.sub_pos_of_lt bytesRead.isLt
  · rename_i bytesRead _
    exact Nat.sub_pos_of_lt bytesRead.isLt

/-- With nothing left to take, no payload is to come. -/
theorem Tracks.todo_eq_nil {c : FrameCodec} {todo : List (List UInt8)} (ht : Tracks c todo []) :
    todo = [] :=
  ht.todo_eq_nil_of_lt (bytesNeeded_pos c)

/-! ### One transition at a time

Both decoders take bytes into the buffer, then either wait for more of the same part of the frame
or act on a complete part. These lemmas say what each of those does to `Tracks`; `decode` and
`decodeBuffered` only differ in where the bytes come from. -/

section Steps

variable {c : FrameCodec} {todo : List (List UInt8)} {bytes input : List UInt8}

/-- Header bytes written after those already read extend what the codec holds. -/
theorem take_writeBuffer_readingLength {bytesRead : Fin frameHeaderSize}
    (hstate : c.state = .readingLength bytesRead) (hfit) :
    (c.writeBuffer bytesRead bytes hfit).buffer.take (bytesRead + bytes.length) = c.held ++ bytes := by
  have hbuf := c.buffer_length
  rw [hstate, ReadState.bufferLen] at hbuf
  rw [buffer_writeBuffer, take_writeAt _ (by have := bytesRead.isLt; omega), held, hstate]

theorem take_writeBuffer_readingBody {expectedLen : ℕ} {bytesRead : Fin expectedLen}
    (hstate : c.state = .readingBody expectedLen bytesRead) (hfit) :
    toBE 4 (expectedLen % 2 ^ 32) ++
        (c.writeBuffer bytesRead bytes hfit).buffer.take (bytesRead + bytes.length) =
      c.held ++ bytes := by
  have hbuf := c.buffer_length
  rw [hstate, ReadState.bufferLen] at hbuf
  rw [buffer_writeBuffer, take_writeAt _ (by have := bytesRead.isLt; omega), held, hstate,
    List.append_assoc]

/-- Header bytes that leave the header short. -/
theorem Tracks.header_more {bytesRead : Fin frameHeaderSize} (ht : Tracks c todo (bytes ++ input))
    (hstate : c.state = .readingLength bytesRead) (hfit)
    (htotal : bytesRead + bytes.length < frameHeaderSize) (hs) :
    Tracks ((c.writeBuffer bytesRead bytes hfit).setState (.readingLength ⟨_, htotal⟩) hs)
      todo input where
  stream := by
    simp only [held, state_setState, buffer_setState]
    rw [take_writeBuffer_readingLength hstate, List.append_assoc]
    exact ht.stream
  fits := ht.fits
  body := by simp

/-- Header bytes that complete the header: it announces the length of the next payload, and the
bytes after it are that payload and the rest of the batch. -/
theorem Tracks.header_done {bytesRead : Fin frameHeaderSize} (ht : Tracks c todo (bytes ++ input))
    (hstate : c.state = .readingLength bytesRead) (hfit)
    (htotal : bytesRead + bytes.length = frameHeaderSize) :
    ∃ p rest, todo = p :: rest ∧ headerLen (c.writeBuffer bytesRead bytes hfit).buffer = p.length ∧
      input = p ++ encodeBatch rest := by
  have htake : (c.writeBuffer bytesRead bytes hfit).buffer.take (bytesRead + bytes.length) =
      c.held ++ bytes := take_writeBuffer_readingLength hstate hfit
  rw [htotal] at htake
  have hheld : (c.held ++ bytes).length = 4 := by
    rw [← htake, List.length_take, buffer_writeBuffer, length_writeAt (by
      rw [c.buffer_length]; exact hfit), c.buffer_length, hstate]
    rfl
  have hstream := ht.stream
  rw [← List.append_assoc] at hstream
  obtain _ | ⟨p, rest⟩ := todo
  · have := congrArg List.length hstream
    simp only [List.length_append, hheld, encodeBatch_nil, List.length_nil] at this
    omega
  -- the four bytes held are the header of `p`
  rw [encodeBatch_cons, encode, List.append_assoc (toBE 4 _)] at hstream
  obtain ⟨hhdr, hinput⟩ := List.append_inj hstream (by rw [hheld, length_toBE])
  refine ⟨p, rest, rfl, ?_, hinput⟩
  have hhead : (c.writeBuffer bytesRead bytes hfit).buffer.take 4 = toBE 4 (p.length % 2 ^ 32) :=
    htake.trans hhdr
  have hfitp := (ht.fits p (by simp)).2
  rw [headerLen, hhead, ofBE_toBE]
  omega

/-- Body bytes that leave the body short. -/
theorem Tracks.body_more {expectedLen : ℕ} {bytesRead : Fin expectedLen}
    (ht : Tracks c todo (bytes ++ input)) (hstate : c.state = .readingBody expectedLen bytesRead)
    (hfit) (htotal : bytesRead + bytes.length < expectedLen) (hs) :
    Tracks ((c.writeBuffer bytesRead bytes hfit).setState (.readingBody expectedLen ⟨_, htotal⟩) hs)
      todo input where
  stream := by
    simp only [held, state_setState, buffer_setState]
    rw [take_writeBuffer_readingBody hstate, List.append_assoc]
    exact ht.stream
  fits := ht.fits
  body := by
    intro e b he
    simp only [state_setState, ReadState.readingBody.injEq] at he
    obtain ⟨rfl, -⟩ := he
    exact ht.body _ _ hstate

/-- Body bytes that complete the body: the message is the next payload. -/
theorem Tracks.body_done {expectedLen : ℕ} {bytesRead : Fin expectedLen}
    (ht : Tracks c todo (bytes ++ input)) (hstate : c.state = .readingBody expectedLen bytesRead)
    (hfit) (htotal : bytesRead + bytes.length = expectedLen) :
    ∃ rest, todo = (c.writeBuffer bytesRead bytes hfit).buffer.take expectedLen :: rest ∧
      input = encodeBatch rest := by
  obtain ⟨p, rest, rfl, hlen⟩ := ht.body _ _ hstate
  have htake : toBE 4 (expectedLen % 2 ^ 32) ++
      (c.writeBuffer bytesRead bytes hfit).buffer.take (bytesRead + bytes.length) =
      c.held ++ bytes := take_writeBuffer_readingBody hstate hfit
  rw [htotal] at htake
  have hstream := ht.stream
  rw [← List.append_assoc, ← htake, encodeBatch_cons, encode, hlen, List.append_assoc,
    List.append_assoc] at hstream
  have hsame := List.append_cancel_left hstream
  -- the body held has the length of `p`, so it is `p`
  obtain ⟨hbody, hinput⟩ := List.append_inj hsame (by
    rw [List.length_take, buffer_writeBuffer, length_writeAt (by rw [c.buffer_length]; exact hfit),
      c.buffer_length, hstate, ReadState.bufferLen, hlen, Nat.min_self])
  exact ⟨rest, by rw [hbody], hinput⟩

theorem tracks_emptyFrame (c : FrameCodec) (h) {rest : List (List UInt8)}
    (hfits : ∀ q ∈ rest, q.length ≤ c.maxSize ∧ q.length < 2 ^ 32)
    (hinput : input = encodeBatch rest) : Tracks (c.emptyFrame h) rest input where
  stream := by
    rw [hinput]
    rfl
  fits := hfits
  body := by simp [ReadState.default]

theorem tracks_rejectFrame (c : FrameCodec) (h) {rest : List (List UInt8)}
    (hfits : ∀ q ∈ rest, q.length ≤ c.maxSize ∧ q.length < 2 ^ 32)
    (hinput : input = encodeBatch rest) : Tracks (c.rejectFrame h) rest input where
  stream := by
    rw [hinput]
    rfl
  fits := hfits
  body := by simp [ReadState.default]

theorem tracks_startBody (c : FrameCodec) {len : ℕ} (hpos : 0 < len) {p : List UInt8}
    {rest : List (List UInt8)} (hlen : len = p.length)
    (hfits : ∀ q ∈ p :: rest, q.length ≤ c.maxSize ∧ q.length < 2 ^ 32)
    (hinput : input = p ++ encodeBatch rest) : Tracks (c.startBody len hpos) (p :: rest) input where
  stream := by
    simp only [held, state_startBody, List.take_zero, List.append_nil, hinput, encodeBatch_cons,
      encode, List.append_assoc, hlen]
  fits := hfits
  body := by
    intro e b he
    simp only [state_startBody, ReadState.readingBody.injEq] at he
    exact ⟨p, rest, rfl, hlen ▸ he.1⟩

theorem tracks_finishBody (c : FrameCodec) (expectedLen : ℕ) {rest : List (List UInt8)}
    (hfits : ∀ q ∈ rest, q.length ≤ c.maxSize ∧ q.length < 2 ^ 32)
    (hinput : input = encodeBatch rest) : Tracks (c.finishBody expectedLen).2 rest input where
  stream := by
    rw [hinput]
    rfl
  fits := hfits
  body := by simp [ReadState.default]

/-- The bytes of a complete part: those read so far and those just taken fill what it needs. -/
theorem total_eq_of_not_lt {bytesRead n : ℕ} {s : ReadState} (hstate : c.state = s)
    (hfit : bytesRead + n ≤ c.state.bufferLen) (htotal : ¬bytesRead + n < s.bufferLen) :
    bytesRead + n = s.bufferLen := by
  rw [hstate] at hfit
  omega

end Steps

/-! ## Counting frames -/

/-- `c'` has counted the frames `frames` on top of what `c` counted. -/
structure Counts (c : FrameCodec) (frames : List (List UInt8)) (c' : FrameCodec) : Prop where
  framesDecoded : c'.framesDecoded = c.framesDecoded + frames.length
  bytesDecoded : c'.bytesDecoded = c.bytesDecoded + (frames.map List.length).sum

theorem counts_nil {c c' : FrameCodec} (hframes : c'.framesDecoded = c.framesDecoded)
    (hbytes : c'.bytesDecoded = c.bytesDecoded) : Counts c [] c' :=
  ⟨by simp [hframes], by simp [hbytes]⟩

theorem counts_single {c c' : FrameCodec} {p : List UInt8}
    (hframes : c'.framesDecoded = c.framesDecoded + 1)
    (hbytes : c'.bytesDecoded = c.bytesDecoded + p.length) : Counts c [p] c' :=
  ⟨by simp [hframes], by simp [hbytes]⟩

theorem Counts.trans {c c₁ c₂ : FrameCodec} {xs ys : List (List UInt8)} (h₁ : Counts c xs c₁)
    (h₂ : Counts c₁ ys c₂) : Counts c (xs ++ ys) c₂ :=
  ⟨by rw [h₂.framesDecoded, h₁.framesDecoded, List.length_append, Nat.add_assoc],
    by rw [h₂.bytesDecoded, h₁.bytesDecoded, List.map_append, List.sum_append, Nat.add_assoc]⟩

/-- Counting from an intermediate codec with the same counters. -/
theorem Counts.after {c c₁ c' : FrameCodec} {frames : List (List UInt8)} (h : Counts c₁ frames c')
    (hframes : c₁.framesDecoded = c.framesDecoded) (hbytes : c₁.bytesDecoded = c.bytesDecoded) :
    Counts c frames c' :=
  ⟨by rw [h.framesDecoded, hframes], by rw [h.bytesDecoded, hbytes]⟩

theorem reduceOption_cons {α : Type} (o : Option α) (l : List (Option α)) :
    (o :: l).reduceOption = o.toList ++ l.reduceOption := by
  cases o <;> simp

/-! ## One call of `decode` -/

/-- One call, from a codec at `todo` with the script `s` left to a codec `c'` at `todo'` with
`s'` left: the frame given back, if any, is the next payload and the counters count it, and the
script only got shorter, strictly so when nothing came back and it was not used up. -/
structure Advances (c : FrameCodec) (todo : List (List UInt8)) (s : List Event)
    (out : Option (List UInt8)) (c' : FrameCodec) (todo' : List (List UInt8)) (s' : List Event) :
    Prop where
  todo_eq : todo = out.toList ++ todo'
  tracks : Tracks c' todo' (Script.bytes s')
  nonempty : Script.Nonempty s'
  counts : Counts c out.toList c'
  length_le : s'.length ≤ s.length
  progress : out = none → s = [] ∨ s'.length < s.length

/-- A call that goes on from an intermediate codec with the same counters. -/
theorem Advances.after {c c₁ c' : FrameCodec} {todo todo' : List (List UInt8)}
    {s s₁ s' : List Event} {out : Option (List UInt8)} (h : Advances c₁ todo s₁ out c' todo' s')
    (hframes : c₁.framesDecoded = c.framesDecoded) (hbytes : c₁.bytesDecoded = c.bytesDecoded)
    (hlen : s₁.length ≤ s.length) : Advances c todo s out c' todo' s' where
  todo_eq := h.todo_eq
  tracks := h.tracks
  nonempty := h.nonempty
  counts := h.counts.after hframes hbytes
  length_le := h.length_le.trans hlen
  progress := by
    intro hout
    have hle := h.length_le
    rw [← List.length_eq_zero_iff]
    rcases h.progress hout with h₁ | h₁
    · rw [h₁, List.length_nil] at hle
      omega
    · omega

/-- A call that gives back nothing. -/
theorem Advances.none {c c' : FrameCodec} {todo : List (List UInt8)} {s s' : List Event}
    (ht : Tracks c' todo (Script.bytes s')) (hs : Script.Nonempty s')
    (hframes : c'.framesDecoded = c.framesDecoded) (hbytes : c'.bytesDecoded = c.bytesDecoded)
    (hlen : s'.length ≤ s.length) (hprogress : s = [] ∨ s'.length < s.length) :
    Advances c todo s none c' todo s' :=
  ⟨rfl, ht, hs, counts_nil hframes hbytes, hlen, fun _ => hprogress⟩

/-- A call that gives back the next payload. -/
theorem Advances.frame {c c' : FrameCodec} {p : List UInt8} {rest : List (List UInt8)}
    {s s' : List Event} (ht : Tracks c' rest (Script.bytes s')) (hs : Script.Nonempty s')
    (hframes : c'.framesDecoded = c.framesDecoded + 1)
    (hbytes : c'.bytesDecoded = c.bytesDecoded + p.length) (hlen : s'.length ≤ s.length) :
    Advances c (p :: rest) s (some p) c' rest s' :=
  ⟨rfl, ht, hs, counts_single hframes hbytes, hlen, fun h => nomatch h⟩

/-- One `decode` call on a script of non-empty chunks, from a codec part way through a batch:
it never fails, and it gives back nothing or the next payload. -/
theorem decode_advances (c : FrameCodec) (s : List Event) {todo : List (List UInt8)}
    (ht : Tracks c todo (Script.bytes s)) (hs : Script.Nonempty s) :
    ∃ out todo', (decode Script.reader c s).1 = .ok out ∧
      Advances c todo s out (decode Script.reader c s).2.1 todo' (decode Script.reader c s).2.2 := by
  fun_induction decode Script.reader c s with
  | case1 c r b hstate bytes r' hread hzero _ =>
    -- a script of non-empty chunks never gives an empty read
    exact absurd (List.length_eq_zero_iff.1 hzero)
      (Script.read_ok_ne_nil hs (by have := b.isLt; omega) hread).1
  | case2 c r b hstate bytes r' hread hzero _ =>
    exact absurd (List.length_eq_zero_iff.1 hzero)
      (Script.read_ok_ne_nil hs (by have := b.isLt; omega) hread).1
  | case3 c r b hstate bytes r' hread hzero hfit c₁ hlen₁ htotal ih =>
    have hne := Script.read_ok_ne_nil hs (by have := b.isLt; omega) hread
    rw [Script.bytes_of_read_ok hread] at ht
    obtain ⟨out, todo', hres, hadv⟩ := ih (ht.header_more hstate hfit htotal _) hne.2
    exact ⟨out, todo', hres, hadv.after rfl rfl (Script.length_read_le hread)⟩
  | case4 c r b hstate bytes r' hread hzero hfit c₁ hlen₁ htotal len hlarge =>
    rw [Script.bytes_of_read_ok hread] at ht
    obtain ⟨p, rest, rfl, hlen, -⟩ :=
      ht.header_done hstate hfit (total_eq_of_not_lt hstate hfit htotal)
    -- the length the header announces is that of a payload, which fits
    have hp := (ht.fits p List.mem_cons_self).1
    have : len = p.length := hlen
    omega
  | case5 c r b hstate bytes r' hread hzero hfit c₁ hlen₁ htotal len hsmall hempty =>
    have hne := Script.read_ok_ne_nil hs (by have := b.isLt; omega) hread
    rw [Script.bytes_of_read_ok hread] at ht
    obtain ⟨p, rest, rfl, hlen, hinput⟩ :=
      ht.header_done hstate hfit (total_eq_of_not_lt hstate hfit htotal)
    have hp : p = [] := List.length_eq_zero_iff.1 (hlen ▸ hempty)
    subst hp
    refine ⟨some [], rest, rfl, .frame ?_ hne.2 rfl rfl (Script.length_read_le hread)⟩
    exact tracks_emptyFrame _ hlen₁ (fun q hq => ht.fits q (List.mem_cons_of_mem _ hq))
      (hinput.trans (List.nil_append _))
  | case6 c r b hstate bytes r' hread hzero hfit c₁ hlen₁ htotal len hsmall hempty ih =>
    have hne := Script.read_ok_ne_nil hs (by have := b.isLt; omega) hread
    rw [Script.bytes_of_read_ok hread] at ht
    obtain ⟨p, rest, rfl, hlen, hinput⟩ :=
      ht.header_done hstate hfit (total_eq_of_not_lt hstate hfit htotal)
    obtain ⟨out, todo', hres, hadv⟩ := ih (tracks_startBody _ _ hlen ht.fits hinput) hne.2
    exact ⟨out, todo', hres, hadv.after rfl rfl (Script.length_read_le hread)⟩
  | case7 c r b hstate e r' hread hwb =>
    exact ⟨none, todo, rfl, .none ((Script.bytes_of_read_error hread).1 ▸ ht)
      (Script.nonempty_read_error hs hread) rfl rfl (Script.length_read_le hread)
      (Script.length_read_error hread)⟩
  | case8 c r b hstate e r' hread hwb hint ih =>
    obtain ⟨out, todo', hres, hadv⟩ :=
      ih ((Script.bytes_of_read_error hread).1 ▸ ht) (Script.nonempty_read_error hs hread)
    exact ⟨out, todo', hres, hadv.after rfl rfl (Script.length_read_le hread)⟩
  | case9 c r b hstate e r' hread hwb hint =>
    exact ((Script.bytes_of_read_error hread).2.resolve_left hwb |> hint).elim
  | case10 c r e b hstate bytes r' hread hzero =>
    exact absurd (List.length_eq_zero_iff.1 hzero)
      (Script.read_ok_ne_nil hs (by have := b.isLt; omega) hread).1
  | case11 c r e b hstate bytes r' hread hzero hfit c₁ htotal ih =>
    have hne := Script.read_ok_ne_nil hs (by have := b.isLt; omega) hread
    rw [Script.bytes_of_read_ok hread] at ht
    obtain ⟨out, todo', hres, hadv⟩ := ih (ht.body_more hstate hfit htotal _) hne.2
    exact ⟨out, todo', hres, hadv.after rfl rfl (Script.length_read_le hread)⟩
  | case12 c r e b hstate bytes r' hread hzero hfit c₁ htotal message c₂ hfinish =>
    obtain ⟨hmessage, hc₂⟩ := Prod.ext_iff.1 hfinish
    subst hmessage hc₂
    have hne := Script.read_ok_ne_nil hs (by have := b.isLt; omega) hread
    rw [Script.bytes_of_read_ok hread] at ht
    obtain ⟨rest, rfl, hinput⟩ := ht.body_done hstate hfit (total_eq_of_not_lt hstate hfit htotal)
    -- the message is the whole buffer, of the length the header announced
    have hmsg : (c₁.buffer.take e).length = e := by
      rw [List.length_take, c₁.buffer_length]
      simp [c₁, hstate, ReadState.bufferLen]
    refine ⟨some _, rest, rfl, .frame ?_ hne.2 rfl ?_ (Script.length_read_le hread)⟩
    · exact tracks_finishBody _ _ (fun q hq => ht.fits q (List.mem_cons_of_mem _ hq)) hinput
    rw [bytesDecoded_finishBody]
    exact congrArg _ hmsg.symm
  | case13 c r e b hstate e' r' hread hwb =>
    exact ⟨none, todo, rfl, .none ((Script.bytes_of_read_error hread).1 ▸ ht)
      (Script.nonempty_read_error hs hread) rfl rfl (Script.length_read_le hread)
      (Script.length_read_error hread)⟩
  | case14 c r e b hstate e' r' hread hwb hint ih =>
    obtain ⟨out, todo', hres, hadv⟩ :=
      ih ((Script.bytes_of_read_error hread).1 ▸ ht) (Script.nonempty_read_error hs hread)
    exact ⟨out, todo', hres, hadv.after rfl rfl (Script.length_read_le hread)⟩
  | case15 c r e b hstate e' r' hread hwb hint =>
    exact ((Script.bytes_of_read_error hread).2.resolve_left hwb |> hint).elim

/-! ## Repeated calls of `decode` -/

/-- `n` calls of `decode` on a script of non-empty chunks, from a codec part way through a batch:
they give back the next payloads in order and nothing else, and once there have been as many
calls as payloads and script entries left, every payload has come back. -/
theorem decodeCalls_advance (n : ℕ) (c : FrameCodec) (s : List Event) {todo : List (List UInt8)}
    (ht : Tracks c todo (Script.bytes s)) (hs : Script.Nonempty s) :
    ∃ (outs : List (Option (List UInt8))) (todo' : List (List UInt8)),
      (decodeCalls Script.reader n c s).1 = outs.map .ok ∧
      todo = outs.reduceOption ++ todo' ∧
      Tracks (decodeCalls Script.reader n c s).2.1 todo'
        (Script.bytes (decodeCalls Script.reader n c s).2.2) ∧
      Counts c outs.reduceOption (decodeCalls Script.reader n c s).2.1 ∧
      (todo.length + s.length ≤ n → todo' = []) := by
  induction n generalizing c s todo with
  | zero =>
    refine ⟨[], todo, rfl, rfl, ht, counts_nil rfl rfl, ?_⟩
    intro h
    exact List.length_eq_zero_iff.1 (by omega)
  | succ n ih =>
    obtain ⟨out, todo₁, hres, hadv⟩ := decode_advances c s ht hs
    obtain ⟨outs, todo', hress, htodo, ht', hcounts, hdone⟩ := ih _ _ hadv.tracks hadv.nonempty
    refine ⟨out :: outs, todo', ?_, ?_, ht', ?_, ?_⟩
    · simp only [decodeCalls, hres, hress, List.map_cons]
    · rw [reduceOption_cons, List.append_assoc, ← htodo]
      exact hadv.todo_eq
    · rw [reduceOption_cons]
      exact hadv.counts.trans hcounts
    · intro hbound
      have hlen := hadv.length_le
      have htodo₁ := congrArg List.length hadv.todo_eq
      rw [List.length_append] at htodo₁
      cases out with
      | some p =>
        -- a payload came back: one fewer to come
        exact hdone (by simp at htodo₁; omega)
      | none =>
        rcases hadv.progress rfl with hnil | hshorter
        · -- the script was used up, so the batch was already all back
          subst hnil
          have htodo₀ := hadv.todo_eq
          rw [ht.todo_eq_nil, Option.toList_none, List.nil_append, htodo] at htodo₀
          exact (List.append_eq_nil_iff.1 htodo₀.symm).2
        · exact hdone (by simp at htodo₁; omega)

/-! ## One call of `decode_buffered` -/

section Buffered

variable (c : FrameCodec)

@[simp] theorem available_writeBuffer (offset : ℕ) (bytes : List UInt8) (h) :
    (c.writeBuffer offset bytes h).available = c.available := rfl
@[simp] theorem available_advance (n : ℕ) (h) : (c.advance n h).available = c.available.drop n := by
  simp only [available, advance, List.drop_drop]
@[simp] theorem available_startBody (len : ℕ) (h) : (c.startBody len h).available = c.available :=
  rfl
@[simp] theorem available_emptyFrame (h) : (c.emptyFrame h).available = c.available := rfl
@[simp] theorem available_finishBody (expectedLen : ℕ) :
    (c.finishBody expectedLen).2.available = c.available := rfl

end Buffered

/-- One call of `decode_buffered`, from a codec at `todo` to a codec `c'` at `todo'`, with
`future` the bytes still to be fed: the frame given back, if any, is the next payload and the
counters count it, and nothing comes back only while the next part is not all fed. -/
structure Takes (c : FrameCodec) (todo : List (List UInt8)) (future : List UInt8)
    (out : Option (List UInt8)) (c' : FrameCodec) (todo' : List (List UInt8)) : Prop where
  todo_eq : todo = out.toList ++ todo'
  tracks : Tracks c' todo' (c'.available ++ future)
  counts : Counts c out.toList c'
  drained : out = none → future = [] → todo' = []

/-- A complete header or body copied out of the accumulator: what it needs is there. -/
theorem total_eq_of_le {bytesRead len : ℕ} {available : List UInt8}
    (hlt : bytesRead < len) (havail : ¬available.length < len - bytesRead) :
    bytesRead + (available.take (len - bytesRead)).length = len := by
  rw [List.length_take]
  omega

/-- One `decode_buffered` call from a codec part way through a batch gives back nothing or the
next payload, and nothing only while the next part is not all fed. -/
theorem decodeBuffered_takes (c : FrameCodec) {todo : List (List UInt8)} {future : List UInt8}
    (ht : Tracks c todo (c.available ++ future)) :
    ∃ todo', Takes c todo future c.decodeBuffered.1 c.decodeBuffered.2 todo' := by
  fun_induction decodeBuffered c with
  | case1 c b hstate needed havail =>
    refine ⟨todo, rfl, ht, counts_nil rfl rfl, fun _ hfuture => ?_⟩
    subst hfuture
    rw [List.append_nil] at ht
    exact ht.todo_eq_nil_of_lt (by simpa only [bytesNeeded, hstate] using havail)
  | case2 c b hstate needed havail hfit hpos c₁ hlen₁ len hlarge ih =>
    rw [← List.take_append_drop needed c.available, List.append_assoc] at ht
    obtain ⟨p, rest, rfl, hlen, -⟩ := ht.header_done hstate hfit (total_eq_of_le b.isLt havail)
    have hp := (ht.fits p List.mem_cons_self).1
    have : len = p.length := hlen
    omega
  | case3 c b hstate needed havail hfit hpos c₁ hlen₁ len hsmall hempty =>
    rw [← List.take_append_drop needed c.available, List.append_assoc] at ht
    obtain ⟨p, rest, rfl, hlen, hinput⟩ :=
      ht.header_done hstate hfit (total_eq_of_le b.isLt havail)
    have hp : p = [] := List.length_eq_zero_iff.1 (hlen ▸ hempty)
    subst hp
    refine ⟨rest, rfl, ?_, counts_single rfl rfl, nofun⟩
    apply tracks_emptyFrame _ hlen₁ (fun q hq => ht.fits q (List.mem_cons_of_mem _ hq))
    have hc₁ : c₁.available = c.available.drop needed := available_advance _ _ _
    rw [available_emptyFrame, hc₁]
    simpa using hinput
  | case4 c b hstate needed havail hfit hpos c₁ hlen₁ len hsmall hempty ih =>
    rw [← List.take_append_drop needed c.available, List.append_assoc] at ht
    obtain ⟨p, rest, rfl, hlen, hinput⟩ :=
      ht.header_done hstate hfit (total_eq_of_le b.isLt havail)
    have hc₁ : c₁.available = c.available.drop needed := available_advance _ _ _
    have hinput' : c₁.available ++ future = p ++ encodeBatch rest := by
      rw [hc₁]
      exact hinput
    obtain ⟨todo', htakes⟩ := ih (tracks_startBody _ _ hlen ht.fits hinput')
    exact ⟨todo', {htakes with counts := htakes.counts.after rfl rfl}⟩
  | case5 c e b hstate needed havail =>
    refine ⟨todo, rfl, ht, counts_nil rfl rfl, fun _ hfuture => ?_⟩
    subst hfuture
    rw [List.append_nil] at ht
    exact ht.todo_eq_nil_of_lt (by simpa only [bytesNeeded, hstate] using havail)
  | case6 c e b hstate needed havail hfit hpos c₁ message c₂ hfinish =>
    obtain ⟨hmessage, hc₂⟩ := Prod.ext_iff.1 hfinish
    subst hmessage hc₂
    rw [← List.take_append_drop needed c.available, List.append_assoc] at ht
    obtain ⟨rest, rfl, hinput⟩ := ht.body_done hstate hfit (total_eq_of_le b.isLt havail)
    have hbuf : c₁.buffer.length = e := by
      rw [c₁.buffer_length]
      show c.state.bufferLen = e
      rw [hstate, ReadState.bufferLen]
    have hmsg : (c₁.buffer.take e).length = e := by
      rw [List.length_take, hbuf, Nat.min_self]
    have hc₁ : c₁.available = c.available.drop needed := available_advance _ _ _
    refine ⟨rest, rfl, ?_, counts_single rfl ?_, nofun⟩
    · apply tracks_finishBody c₁ e (fun q hq => ht.fits q (List.mem_cons_of_mem _ hq))
      rw [available_finishBody, hc₁]
      exact hinput
    rw [bytesDecoded_finishBody]
    exact congrArg _ hmsg.symm

/-! ## Feeding and runs of calls -/

section Feed

variable (c : FrameCodec) (data : List UInt8)

@[simp] theorem state_feed : (c.feed data).state = c.state := by
  unfold feed
  dsimp only
  split <;> rfl

@[simp] theorem buffer_feed : (c.feed data).buffer = c.buffer := by
  unfold feed
  dsimp only
  split <;> rfl

@[simp] theorem maxSize_feed : (c.feed data).maxSize = c.maxSize := by
  unfold feed
  dsimp only
  split <;> rfl

@[simp] theorem framesDecoded_feed : (c.feed data).framesDecoded = c.framesDecoded := by
  unfold feed
  dsimp only
  split <;> rfl

@[simp] theorem bytesDecoded_feed : (c.feed data).bytesDecoded = c.bytesDecoded := by
  unfold feed
  dsimp only
  split <;> rfl

/-- Feeding appends to the bytes not read yet, whether or not the accumulator is compacted. -/
theorem available_feed : (c.feed data).available = c.available ++ data := by
  unfold feed available
  dsimp only
  split
  · simp [compact]
  · exact List.drop_append_of_le_length c.accumulatorPos_le

end Feed

/-- `Tracks` only looks at the state, the buffer and `max_size`. -/
theorem Tracks.congr {c c' : FrameCodec} {todo : List (List UInt8)} {input : List UInt8}
    (ht : Tracks c todo input) (hstate : c'.state = c.state) (hbuffer : c'.buffer = c.buffer)
    (hmax : c'.maxSize = c.maxSize) : Tracks c' todo input where
  stream := by
    have hheld : c'.held = c.held := by
      unfold held
      rw [hstate, hbuffer]
    rw [hheld]
    exact ht.stream
  fits := hmax ▸ ht.fits
  body := hstate ▸ ht.body

theorem runCalls_append (c : FrameCodec) (xs ys : List Call) :
    runCalls c (xs ++ ys) =
      ((runCalls c xs).1 ++ (runCalls (runCalls c xs).2 ys).1, (runCalls (runCalls c xs).2 ys).2) := by
  induction xs generalizing c with
  | nil => rfl
  | cons call xs ih =>
    cases call with
    | feed data => exact ih _
    | decodeBuffered => simp only [List.cons_append, runCalls, ih, List.cons_append]

/-- Any calls, from a codec part way through a batch whose bytes not fed yet are those the calls
feed and then `future`: what comes back is the next payloads in order, and they are counted. -/
theorem runCalls_takes (calls : List Call) (c : FrameCodec) {todo : List (List UInt8)}
    {future : List UInt8} (ht : Tracks c todo (c.available ++ (calls.map Call.fed).flatten ++ future)) :
    ∃ todo', todo = (runCalls c calls).1.reduceOption ++ todo' ∧
      Tracks (runCalls c calls).2 todo' ((runCalls c calls).2.available ++ future) ∧
      Counts c (runCalls c calls).1.reduceOption (runCalls c calls).2 := by
  induction calls generalizing c todo with
  | nil =>
    refine ⟨todo, rfl, ?_, counts_nil rfl rfl⟩
    simpa [runCalls] using ht
  | cons call calls ih =>
    cases call with
    | feed data =>
      -- feeding moves bytes from the future into the accumulator
      have ht' : Tracks (c.feed data) todo
          ((c.feed data).available ++ (calls.map Call.fed).flatten ++ future) := by
        have h := ht.congr (state_feed c data) (buffer_feed c data) (maxSize_feed c data)
        rw [available_feed]
        simpa [Call.fed, List.append_assoc] using h
      obtain ⟨todo', htodo, ht'', hcounts⟩ := ih _ ht'
      exact ⟨todo', htodo, ht'', hcounts.after (framesDecoded_feed c data) (bytesDecoded_feed c data)⟩
    | decodeBuffered =>
      have ht₀ : Tracks c todo (c.available ++ ((calls.map Call.fed).flatten ++ future)) := by
        simpa [Call.fed, List.append_assoc] using ht
      obtain ⟨todo₁, htakes⟩ := decodeBuffered_takes c ht₀
      obtain ⟨todo', htodo, ht', hcounts⟩ :=
        ih _ (by simpa [List.append_assoc] using htakes.tracks)
      refine ⟨todo', ?_, ht', ?_⟩
      · rw [runCalls, reduceOption_cons, List.append_assoc, ← htodo]
        exact htakes.todo_eq
      · rw [runCalls, reduceOption_cons]
        exact htakes.counts.trans hcounts

/-- With everything fed, as many calls of `decode_buffered` as payloads still to come give
them all back. -/
theorem runCalls_drain (m : ℕ) (c : FrameCodec) {todo : List (List UInt8)}
    (ht : Tracks c todo c.available) (hm : todo.length ≤ m) :
    (runCalls c (List.replicate m .decodeBuffered)).1.reduceOption = todo ∧
      Counts c todo (runCalls c (List.replicate m .decodeBuffered)).2 := by
  induction m generalizing c todo with
  | zero =>
    obtain rfl := List.length_eq_zero_iff.1 (Nat.le_zero.1 hm)
    exact ⟨rfl, counts_nil rfl rfl⟩
  | succ m ih =>
    obtain ⟨todo', htakes⟩ := @decodeBuffered_takes c todo [] (by simpa using ht)
    -- a call gives back the next payload, or nothing once none is left
    have hm' : todo'.length ≤ m := by
      have hlen := congrArg List.length htakes.todo_eq
      cases hout : c.decodeBuffered.1 with
      | none =>
        rw [htakes.drained hout rfl]
        exact Nat.zero_le _
      | some p =>
        rw [hout, List.length_append] at hlen
        simp at hlen
        omega
    obtain ⟨hres, hcounts⟩ := ih _ (by simpa using htakes.tracks) hm'
    rw [List.replicate_succ, runCalls, reduceOption_cons, hres]
    exact ⟨htakes.todo_eq.symm, htakes.todo_eq ▸ htakes.counts.trans hcounts⟩

/-! ## Round trips -/

/-- Counted from a new codec. -/
theorem Counts.of_new {maxSize : ℕ} {frames : List (List UInt8)} {c : FrameCodec}
    (h : Counts (new maxSize) frames c) :
    c.framesDecoded = frames.length ∧ c.bytesDecoded = (frames.map List.length).sum := by
  rw [h.framesDecoded, h.bytesDecoded]
  exact ⟨Nat.zero_add _, Nat.zero_add _⟩

/-- `decode` calls on a new codec, reading a script of non-empty chunks that spell the encoded
batch: every call gives back `Ok(None)` or the next payload, and after as many calls as payloads
and script entries every payload has come back, counted. -/
theorem decode_round_trip (maxSize : ℕ) {payloads : List (List UInt8)}
    (hfits : ∀ p ∈ payloads, p.length ≤ maxSize ∧ p.length < 2 ^ 32) (s : List Event)
    (hs : Script.bytes s = encodeBatch payloads) (hne : Script.Nonempty s) (n : ℕ) :
    ∃ outs : List (Option (List UInt8)),
      (decodeCalls Script.reader n (new maxSize) s).1 = outs.map .ok ∧
      outs.reduceOption <+: payloads ∧
      (payloads.length + s.length ≤ n → outs.reduceOption = payloads ∧
        (decodeCalls Script.reader n (new maxSize) s).2.1.framesDecoded = payloads.length ∧
        (decodeCalls Script.reader n (new maxSize) s).2.1.bytesDecoded =
          (payloads.map List.length).sum) := by
  have ht : Tracks (new maxSize) payloads (Script.bytes s) := hs ▸ tracks_new hfits
  obtain ⟨outs, todo', hres, htodo, -, hcounts, hdone⟩ := decodeCalls_advance n _ s ht hne
  refine ⟨outs, hres, ⟨todo', htodo.symm⟩, fun hn => ?_⟩
  rw [hdone hn, List.append_nil] at htodo
  rw [← htodo] at hcounts
  exact ⟨htodo.symm, hcounts.of_new⟩

/-- Any calls on a new codec that feed the encoded batch, in chunks of any length and with
`decode_buffered` calls anywhere between them: the frames given back are the first payloads in
order, and as many more calls as there are payloads give back all of them, counted. -/
theorem decodeBuffered_round_trip (maxSize : ℕ) {payloads : List (List UInt8)}
    (hfits : ∀ p ∈ payloads, p.length ≤ maxSize ∧ p.length < 2 ^ 32) (calls : List Call)
    (hfed : (calls.map Call.fed).flatten = encodeBatch payloads) (m : ℕ) :
    (runCalls (new maxSize) calls).1.reduceOption <+: payloads ∧
      (payloads.length ≤ m →
        (runCalls (new maxSize) (calls ++ List.replicate m .decodeBuffered)).1.reduceOption =
          payloads ∧
        (runCalls (new maxSize) (calls ++ List.replicate m .decodeBuffered)).2.framesDecoded =
          payloads.length ∧
        (runCalls (new maxSize) (calls ++ List.replicate m .decodeBuffered)).2.bytesDecoded =
          (payloads.map List.length).sum) := by
  have ht : Tracks (new maxSize) payloads
      ((new maxSize).available ++ (calls.map Call.fed).flatten ++ []) := by
    simpa [hfed, available, new] using tracks_new hfits
  obtain ⟨todo', htodo, ht', hcounts⟩ := runCalls_takes calls _ ht
  refine ⟨⟨todo', htodo.symm⟩, fun hm => ?_⟩
  -- after the feeds, the calls at the end give back what is left
  have hlen : todo'.length ≤ m := by
    have := congrArg List.length htodo
    rw [List.length_append] at this
    omega
  obtain ⟨hres, hcounts'⟩ := runCalls_drain m _ (by simpa using ht') hlen
  rw [runCalls_append, List.reduceOption_append, hres, ← htodo]
  have := hcounts.trans hcounts'
  rw [← htodo] at this
  exact ⟨rfl, this.of_new⟩

/-- However the encoded batch of payloads that fit is cut into chunks, the codec gives the
payloads back in order and counts them: through `decode` on a reader that hands out the
chunks, none of them empty, between any `WouldBlock` and `Interrupted` answers; and through
`feed` and `decode_buffered`, called in any order. -/
theorem frame_codec_round_trip (maxSize : ℕ) (payloads : List (List UInt8))
    (hfits : ∀ p ∈ payloads, p.length ≤ maxSize ∧ p.length < 2 ^ 32) :
    (∀ s : List Event, Script.bytes s = encodeBatch payloads → Script.Nonempty s → ∀ n : ℕ,
      ∃ outs : List (Option (List UInt8)),
        (decodeCalls Script.reader n (new maxSize) s).1 = outs.map .ok ∧
        outs.reduceOption <+: payloads ∧
        (payloads.length + s.length ≤ n → outs.reduceOption = payloads ∧
          (decodeCalls Script.reader n (new maxSize) s).2.1.framesDecoded = payloads.length ∧
          (decodeCalls Script.reader n (new maxSize) s).2.1.bytesDecoded =
            (payloads.map List.length).sum)) ∧
    (∀ calls : List Call, (calls.map Call.fed).flatten = encodeBatch payloads → ∀ m : ℕ,
      (runCalls (new maxSize) calls).1.reduceOption <+: payloads ∧
      (payloads.length ≤ m →
        (runCalls (new maxSize) (calls ++ List.replicate m .decodeBuffered)).1.reduceOption =
          payloads ∧
        (runCalls (new maxSize) (calls ++ List.replicate m .decodeBuffered)).2.framesDecoded =
          payloads.length ∧
        (runCalls (new maxSize) (calls ++ List.replicate m .decodeBuffered)).2.bytesDecoded =
          (payloads.map List.length).sum)) :=
  ⟨fun s hs hne n => decode_round_trip maxSize hfits s hs hne n,
    fun calls hfed m => decodeBuffered_round_trip maxSize hfits calls hfed m⟩

/-- The batch of `[1, 2, 3]` and an empty payload, read in chunks cut inside the first header,
inside the first payload and inside the second header, between a `WouldBlock` and an
`Interrupted`; and fed in two pieces around an early `decode_buffered`. -/
theorem frame_codec_round_trip_two_payloads :
    let payloads : List (List UInt8) := [[1, 2, 3], []]
    let s : List Event :=
      [.data [0, 0], .wouldBlock, .data [0, 3, 1, 2], .interrupted, .data [3, 0, 0, 0, 0]]
    let calls : List Call := [.feed [0, 0, 0], .decodeBuffered, .feed [3, 1, 2, 3, 0, 0, 0, 0]]
    ((∀ p ∈ payloads, p.length ≤ 16 ∧ p.length < 2 ^ 32) ∧ Script.bytes s = encodeBatch payloads ∧
      Script.Nonempty s ∧ (calls.map Call.fed).flatten = encodeBatch payloads) ∧
    (∃ outs : List (Option (List UInt8)),
        (decodeCalls Script.reader 7 (new 16) s).1 = outs.map .ok ∧
        outs.reduceOption <+: payloads ∧
        (payloads.length + s.length ≤ 7 → outs.reduceOption = payloads ∧
          (decodeCalls Script.reader 7 (new 16) s).2.1.framesDecoded = payloads.length ∧
          (decodeCalls Script.reader 7 (new 16) s).2.1.bytesDecoded =
            (payloads.map List.length).sum)) ∧
    ((runCalls (new 16) calls).1.reduceOption <+: payloads ∧
      (payloads.length ≤ 2 →
        (runCalls (new 16) (calls ++ List.replicate 2 .decodeBuffered)).1.reduceOption =
          payloads ∧
        (runCalls (new 16) (calls ++ List.replicate 2 .decodeBuffered)).2.framesDecoded =
          payloads.length ∧
        (runCalls (new 16) (calls ++ List.replicate 2 .decodeBuffered)).2.bytesDecoded =
          (payloads.map List.length).sum)) := by
  intro payloads s calls
  have hfits : ∀ p ∈ payloads, p.length ≤ 16 ∧ p.length < 2 ^ 32 := by decide
  have hbytes : Script.bytes s = encodeBatch payloads := by decide
  -- each of the three chunks holds a byte
  have hne : Script.Nonempty s := by
    intro chunk hchunk
    simp only [s, List.mem_cons, Event.data.injEq, reduceCtorEq, List.not_mem_nil, or_false,
      false_or] at hchunk
    rcases hchunk with rfl | rfl | rfl <;> simp
  have hfed : (calls.map Call.fed).flatten = encodeBatch payloads := by decide
  have h := frame_codec_round_trip 16 payloads hfits
  exact ⟨⟨hfits, hbytes, hne, hfed⟩, h.1 s hbytes hne 7, h.2 calls hfed 2⟩

end FrameCodec

end Hdds.Transport
