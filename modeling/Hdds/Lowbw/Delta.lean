import Hdds.Lowbw.Varint
import Hdds.Foundations.Assoc
import Hdds.Foundations.Bytes

/-! # Delta encoding of telemetry on the low-bandwidth transport

`transport/lowbw/delta.rs`: a `DeltaEncoder` keeps the current value of each field and sends
FULL keyframes (every field), DELTA patches (the fields changed since the last record), and
redundant copies of the last FULL; a `DeltaDecoder` rebuilds the fields from them.

* The `HashMap`s are `AList`s. A field list on the wire is a list of `Sigma` entries, key
  first, which `encode_full` and `encode_delta` sort by key.
* Times are milliseconds (`now`), and a duration is `now - t`; the statistics are left out.
* `decodeFields` is the field loop that `decode_full` and `decode_delta` each write out; they
  differ in collecting into a `HashMap` or a `Vec`, which `decodeFull` does after the loop.
* `DeltaLink` is the setting of the whole: the sender's calls on the encoder, each record it
  returns handed to the decoder in order and without loss.

Both payloads read back (`decodeFull_encodeFullFields`, `decodeDelta_encodeDelta`). `Synced` is
the link's invariant: the decoder holds the encoder's FULL and every field not marked dirty; a
FULL establishes it and a DELTA keeps it, leaving the decoder with every current value. A
redundant FULL does not: it is encoded from the snapshot taken at the last FULL, so one sent
after a DELTA hands the decoder older values (`onRecord_sendRedundantFull`). With
`keyframe_redundancy = 0` no redundant FULL is ever due and every run converges.
-/

namespace Hdds.Lowbw
open Wire
set_option autoImplicit false

/-- `DeltaConfig`, with durations in milliseconds. -/
structure DeltaConfig where
  keyframePeriod : ℕ
  keyframeRedundancy : ℕ
  redundancySpacing : ℕ
  maxFields : ℕ

/-- `DeltaConfig::default`. -/
def DeltaConfig.default : DeltaConfig := ⟨5000, 2, 200, 64⟩

/-- `DeltaError`. -/
inductive DeltaError
  | bufferTooSmall
  | invalidPayload
  | unknownField (id : UInt32)
  | tooManyFields
  | varintError
  | baseMissing (seq : UInt32)
  deriving DecidableEq, Repr

/-- A field list: field ids with their values. -/
abbrev Fields := List (Σ _ : UInt32, List UInt8)

/-- `DeltaRecord`. -/
inductive DeltaRecord
  | full (fullSeq : UInt32) (payload : List UInt8)
  | delta (baseFullSeq patchSeq : UInt32) (payload : List UInt8)
  | none
  deriving DecidableEq, Repr

/-- `TrackedField`. -/
structure TrackedField where
  value : List UInt8
  dirty : Bool
  changedThisEpoch : Bool
  deriving DecidableEq, Repr

/-! ## The wire format of a field list -/

/-- One field: `field_id: varint, value_len: varint, value`. -/
def encodeField (f : Σ _ : UInt32, List UInt8) : List UInt8 :=
  encodeVarint f.1.toNat ++ encodeVarint f.2.length ++ f.2

/-- The fields sorted by id, as `encode_full` and `encode_delta` write them. -/
def sortById (fields : Fields) : Fields := fields.mergeSort fun a b => a.1 ≤ b.1

/-- The field loop of `decode_full` and `decode_delta`: `count` fields from `offset` on, and
the offset after them. -/
def decodeFields (payload : List UInt8) : ℕ → ℕ → Except DeltaError (Fields × ℕ)
  | 0, offset => .ok ([], offset)
  | count + 1, offset =>
    if offset ≥ payload.length then .error .invalidPayload
    else
      match decodeVarint (payload.drop offset) with
      | .error _ => .error .varintError
      | .ok (fieldId, n) =>
        let offset := offset + n
        if offset ≥ payload.length then .error .invalidPayload
        else
          match decodeVarint (payload.drop offset) with
          | .error _ => .error .varintError
          | .ok (valueLen, n) =>
            let offset := offset + n
            if offset + valueLen > payload.length then .error .invalidPayload
            else
              let value := field payload offset valueLen
              (decodeFields payload count (offset + valueLen)).map fun r =>
                (⟨UInt32.ofNat fieldId, value⟩ :: r.1, r.2)

/-- A varint read at `offset` of `payload`, as the decoders read their headers. -/
def readVarint (payload : List UInt8) (offset : ℕ) : Except DeltaError (ℕ × ℕ) :=
  (decodeVarint (payload.drop offset)).mapError fun _ => .varintError

/-- `DeltaDecoder::decode_full`: the FULL's sequence number and its fields. -/
def decodeFull (payload : List UInt8) :
    Except DeltaError (UInt32 × AList (fun _ : UInt32 => List UInt8)) := do
  let (fullSeq, n) ← readVarint payload 0
  let offset := n
  if offset ≥ payload.length then throw .invalidPayload
  let (fieldCount, n) ← readVarint payload offset
  let offset := offset + n
  let (fields, _) ← decodeFields payload fieldCount offset
  return (UInt32.ofNat fullSeq, fields.foldl (fun m f => m.insert f.1 f.2) ∅)

/-- `DeltaDecoder::decode_delta`: the base FULL, the patch number and the changed fields. -/
def decodeDelta (payload : List UInt8) : Except DeltaError (UInt32 × UInt32 × Fields) := do
  let (baseFullSeq, n) ← readVarint payload 0
  let offset := n
  if offset ≥ payload.length then throw .invalidPayload
  let (patchSeq, n) ← readVarint payload offset
  let offset := offset + n
  if offset ≥ payload.length then throw .invalidPayload
  let (fieldCount, n) ← readVarint payload offset
  let offset := offset + n
  let (fields, _) ← decodeFields payload fieldCount offset
  return (UInt32.ofNat baseFullSeq, UInt32.ofNat patchSeq, fields)

/-! ## The encoder -/

/-- `DeltaEncoder`, with times in milliseconds. -/
structure DeltaEncoder where
  config : DeltaConfig
  fields : AList (fun _ : UInt32 => TrackedField)
  fullSeq : UInt32
  patchSeq : UInt32
  lastFullTime : Option ℕ
  redundantRemaining : ℕ
  lastRedundantTime : Option ℕ
  fullSnapshot : AList (fun _ : UInt32 => List UInt8)

namespace DeltaEncoder

/-- `DeltaEncoder::new`. -/
def new (config : DeltaConfig) : DeltaEncoder := ⟨config, ∅, 0, 0, none, 0, none, ∅⟩

/-- The current value of every field, as a field list. -/
def values (e : DeltaEncoder) : Fields := e.fields.entries.map fun f => ⟨f.1, f.2.value⟩

/-- `DeltaEncoder::update_field`: a new field starts empty and dirty; a changed value makes
the field dirty. -/
def updateField (e : DeltaEncoder) (fieldId : UInt32) (value : List UInt8) : DeltaEncoder :=
  let entry := (e.fields.lookup fieldId).getD ⟨[], true, true⟩
  let entry := if entry.value ≠ value then ⟨value, true, true⟩ else entry
  { e with fields := e.fields.insert fieldId entry }

/-- `DeltaEncoder::needs_full`. -/
def needsFull (e : DeltaEncoder) (now : ℕ) : Bool :=
  match e.lastFullTime with
  | none => true
  | some t => now - t ≥ e.config.keyframePeriod

/-- `DeltaEncoder::needs_redundant_full`. -/
def needsRedundantFull (e : DeltaEncoder) (now : ℕ) : Bool :=
  if e.redundantRemaining = 0 then false
  else
    match e.lastRedundantTime with
    | none => true
    | some t => now - t ≥ e.config.redundancySpacing

/-- `DeltaEncoder::has_dirty_fields`. -/
def hasDirtyFields (e : DeltaEncoder) : Bool := e.fields.entries.any fun f => f.2.dirty

/-- `encode_full` and `encode_full_from_snapshot`: the sequence number, the field count and the
fields sorted by id. -/
def encodeFullFields (fullSeq : UInt32) (fields : Fields) : List UInt8 :=
  encodeVarint fullSeq.toNat ++ encodeVarint fields.length ++ (sortById fields).flatMap encodeField

/-- `DeltaEncoder::encode_full`. -/
def encodeFull (e : DeltaEncoder) : List UInt8 := encodeFullFields e.fullSeq e.values

/-- `DeltaEncoder::encode_full_from_snapshot`. -/
def encodeFullFromSnapshot (e : DeltaEncoder) : List UInt8 :=
  encodeFullFields e.fullSeq e.fullSnapshot.entries

/-- `DeltaEncoder::encode_delta`. -/
def encodeDelta (e : DeltaEncoder) (dirtyFields : Fields) : List UInt8 :=
  encodeVarint e.fullSeq.toNat ++ encodeVarint e.patchSeq.toNat ++ encodeVarint dirtyFields.length ++
    (sortById dirtyFields).flatMap encodeField

/-- `DeltaEncoder::send_full`: a new epoch, a snapshot of the values, and every field clean. -/
def sendFull (e : DeltaEncoder) (now : ℕ) : DeltaEncoder × DeltaRecord :=
  let e := { e with
    fullSeq := e.fullSeq + 1
    patchSeq := 0
    lastFullTime := some now
    redundantRemaining := e.config.keyframeRedundancy
    lastRedundantTime := some now
    fullSnapshot := e.values.foldl (fun m f => m.insert f.1 f.2) ∅
    fields := e.fields.mapVal fun _ f => { f with dirty := false, changedThisEpoch := false } }
  (e, .full e.fullSeq e.encodeFull)

/-- `DeltaEncoder::send_redundant_full`: the snapshot of the last FULL, again. -/
def sendRedundantFull (e : DeltaEncoder) (now : ℕ) : DeltaEncoder × DeltaRecord :=
  let e := { e with
    redundantRemaining := e.redundantRemaining - 1
    lastRedundantTime := some now }
  (e, .full e.fullSeq e.encodeFullFromSnapshot)

/-- `DeltaEncoder::send_delta`: the dirty fields, which are then clean. -/
def sendDelta (e : DeltaEncoder) : DeltaEncoder × DeltaRecord :=
  let e := { e with patchSeq := e.patchSeq + 1 }
  let dirtyFields : Fields :=
    (e.fields.entries.filter fun f => f.2.dirty).map fun f => ⟨f.1, f.2.value⟩
  let payload := e.encodeDelta dirtyFields
  let e := { e with fields := e.fields.mapVal fun _ f => { f with dirty := false } }
  (e, .delta e.fullSeq e.patchSeq payload)

/-- `DeltaEncoder::poll_record`: a redundant FULL when one is due, else a FULL when the period
has passed, else a DELTA of the dirty fields. -/
def pollRecord (e : DeltaEncoder) (now : ℕ) : DeltaEncoder × DeltaRecord :=
  if e.needsRedundantFull now then e.sendRedundantFull now
  else if e.needsFull now then e.sendFull now
  else if e.hasDirtyFields then e.sendDelta
  else (e, .none)

/-- `DeltaEncoder::force_full`. -/
def forceFull (e : DeltaEncoder) (now : ℕ) : DeltaEncoder × DeltaRecord := e.sendFull now

end DeltaEncoder

/-! ## The decoder -/

/-- `DeltaDecoder`. -/
structure DeltaDecoder where
  fields : AList (fun _ : UInt32 => List UInt8)
  lastFullSeq : Option UInt32
  lastPatchSeq : UInt32

namespace DeltaDecoder

/-- `DeltaDecoder::new`. -/
def new : DeltaDecoder := ⟨∅, none, 0⟩

/-- `DeltaDecoder::on_full`: the FULL replaces every field. -/
def onFull (d : DeltaDecoder) (payload : List UInt8) : Except DeltaError (DeltaDecoder × UInt32) := do
  let (fullSeq, fields) ← decodeFull payload
  return ({ d with fields, lastFullSeq := some fullSeq, lastPatchSeq := 0 }, fullSeq)

/-- `DeltaDecoder::on_delta`: a patch of the FULL the decoder holds overwrites its fields. -/
def onDelta (d : DeltaDecoder) (payload : List UInt8) : Except DeltaError (DeltaDecoder × UInt32) := do
  let (baseFullSeq, patchSeq, changedFields) ← decodeDelta payload
  match d.lastFullSeq with
  | none => throw (.baseMissing baseFullSeq)
  | some last =>
    if last ≠ baseFullSeq then throw (.baseMissing baseFullSeq)
    else
      let fields := changedFields.foldl (fun m f => m.insert f.1 f.2) d.fields
      return ({ d with fields, lastPatchSeq := patchSeq }, patchSeq)

/-- A record handed to the decoder as the claim feeds it: FULLs to `on_full`, DELTAs to
`on_delta`. -/
def onRecord (d : DeltaDecoder) : DeltaRecord → Except DeltaError DeltaDecoder
  | .full _ payload => (d.onFull payload).map Prod.fst
  | .delta _ _ payload => (d.onDelta payload).map Prod.fst
  | .none => .ok d

end DeltaDecoder

/-! ## The link

The claim's setting: every call the sender makes on the encoder, and every record it returns
handed to the decoder in order, none lost. -/

/-- A call on the encoder. -/
inductive DeltaCall
  | updateField (fieldId : UInt32) (value : List UInt8)
  | pollRecord (now : ℕ)
  | forceFull (now : ℕ)
  deriving DecidableEq, Repr

/-- The value a call gives to field `k`, if it writes it. -/
def DeltaCall.valueFor (k : UInt32) : DeltaCall → Option (List UInt8)
  | .updateField fieldId value => if k = fieldId then some value else none
  | _ => none

/-- Whether a call asks the encoder for a record. -/
def DeltaCall.isPoll : DeltaCall → Bool
  | .updateField _ _ => false
  | _ => true

/-- The latest value the calls give to field `k`. -/
def latestValue (k : UInt32) : List DeltaCall → Option (List UInt8)
  | [] => none
  | c :: calls => (latestValue k calls).or (c.valueFor k)

/-- An encoder and the decoder its records are fed to. -/
structure DeltaLink where
  encoder : DeltaEncoder
  decoder : DeltaDecoder

namespace DeltaLink

/-- A new encoder and a new decoder. -/
def init (config : DeltaConfig) : DeltaLink := ⟨DeltaEncoder.new config, DeltaDecoder.new⟩

/-- The decoder takes the record an encoder call returned. -/
def deliver (s : DeltaLink) (r : DeltaEncoder × DeltaRecord) : Except DeltaError DeltaLink :=
  (s.decoder.onRecord r.2).map fun d => ⟨r.1, d⟩

/-- One call; the record it returns goes to the decoder. -/
def step (s : DeltaLink) : DeltaCall → Except DeltaError DeltaLink
  | .updateField fieldId value => .ok { s with encoder := s.encoder.updateField fieldId value }
  | .pollRecord now => s.deliver (s.encoder.pollRecord now)
  | .forceFull now => s.deliver (s.encoder.forceFull now)

/-- The calls one after another, stopping at the first record the decoder refuses. -/
def run : DeltaLink → List DeltaCall → Except DeltaError DeltaLink
  | s, [] => .ok s
  | s, c :: calls => (s.step c).bind fun s => run s calls

end DeltaLink

/-! ## Reading the payloads back -/

open DeltaEncoder

theorem length_encodeField (f : Σ _ : UInt32, List UInt8) (hf : f.2.length < 2 ^ 64) :
    (encodeField f).length = varintLen f.1.toNat + varintLen f.2.length + f.2.length := by
  have hid : f.1.toNat < 2 ^ 64 := by have := f.1.toNat_lt; omega
  simp [encodeField, length_encodeVarint hid, length_encodeVarint hf]
  omega

theorem decodeFields_flatMap : ∀ (l : Fields) (pre rest : List UInt8), (∀ f ∈ l, f.2.length < 2 ^ 64) →
    decodeFields (pre ++ l.flatMap encodeField ++ rest) l.length pre.length =
      .ok (l, pre.length + (l.flatMap encodeField).length)
  | [], pre, rest, _ => by simp [decodeFields]
  | f :: l, pre, rest, hl => by
    have hf := hl f List.mem_cons_self
    have hid : f.1.toNat < 2 ^ 64 := by have := f.1.toNat_lt; omega
    have hlenF := length_encodeField f hf
    have hv1 := one_le_varintLen f.1.toNat
    have hv2 := one_le_varintLen f.2.length
    set payload := pre ++ (f :: l).flatMap encodeField ++ rest with hpayload
    have hsplit : payload = (pre ++ encodeField f) ++ l.flatMap encodeField ++ rest := by
      simp [hpayload, List.append_assoc]
    have hdrop1 : payload.drop pre.length =
        encodeVarint f.1.toNat ++ (encodeVarint f.2.length ++ f.2 ++ l.flatMap encodeField ++ rest) := by
      simp [hpayload, encodeField, List.append_assoc]
    have hdrop2 : payload.drop (pre.length + varintLen f.1.toNat) =
        encodeVarint f.2.length ++ (f.2 ++ l.flatMap encodeField ++ rest) := by
      rw [← List.drop_drop, hdrop1, drop_encodeVarint hid]
      simp [List.append_assoc]
    have hvalue : field payload (pre.length + varintLen f.1.toNat + varintLen f.2.length) f.2.length = f.2 := by
      have hpay : payload = (pre ++ encodeVarint f.1.toNat ++ encodeVarint f.2.length) ++ f.2 ++
          (l.flatMap encodeField ++ rest) := by
        simp [hpayload, encodeField, List.append_assoc]
      have hA : (pre ++ encodeVarint f.1.toNat ++ encodeVarint f.2.length).length =
          pre.length + varintLen f.1.toNat + varintLen f.2.length := by
        simp [length_encodeVarint hid, length_encodeVarint hf]
        omega
      rw [hpay, ← hA]
      exact field_append_self _ _ _
    have hlen : payload.length = pre.length + (encodeField f).length + (l.flatMap encodeField).length + rest.length := by
      simp [hpayload]
      omega
    have ih := decodeFields_flatMap l (pre ++ encodeField f) rest fun g hg => hl g (List.mem_cons_of_mem f hg)
    rw [← hsplit, List.length_append, hlenF] at ih
    rw [List.length_cons, decodeFields, if_neg (by omega), hdrop1, decodeVarint_encodeVarint hid]
    dsimp only
    rw [if_neg (by omega), hdrop2, decodeVarint_encodeVarint hf]
    dsimp only
    rw [if_neg (by omega), hvalue, show pre.length + varintLen f.1.toNat + varintLen f.2.length + f.2.length =
      pre.length + (varintLen f.1.toNat + varintLen f.2.length + f.2.length) by omega, ih]
    simp [Except.map, UInt32.ofNat_toNat, hlenF, Nat.add_assoc]

theorem readVarint_eq (payload pre rest : List UInt8) {value : ℕ} (hv : value < 2 ^ 64)
    (h : payload = pre ++ encodeVarint value ++ rest) :
    readVarint payload pre.length = .ok (value, varintLen value) := by
  rw [h, readVarint, List.append_assoc, List.drop_left, decodeVarint_encodeVarint hv]
  rfl

theorem perm_sortById (fields : Fields) : (sortById fields).Perm fields := List.mergeSort_perm _ _

/-- Distinct field ids are at most `2^32`, so a field count always fits a varint. -/
theorem length_lt_of_nodupKeys {fields : Fields} (h : fields.NodupKeys) : fields.length < 2 ^ 64 := by
  have hcard : fields.keys.length ≤ Fintype.card UInt32 := List.Nodup.length_le_card h
  rw [← FinEnum.card_eq_fintypeCard, List.keys, List.length_map] at hcard
  change _ ≤ 2 ^ 32 at hcard
  omega

theorem decodeFull_encodeFullFields (seq : UInt32) (fields : Fields) (hkeys : fields.NodupKeys)
    (hfit : ∀ f ∈ fields, f.2.length < 2 ^ 64) :
    decodeFull (encodeFullFields seq fields) =
      .ok (seq, (sortById fields).foldl (fun m f => m.insert f.1 f.2) ∅) := by
  have hperm := perm_sortById fields
  have hn : fields.length < 2 ^ 64 := length_lt_of_nodupKeys hkeys
  have hseq : seq.toNat < 2 ^ 64 := by have := seq.toNat_lt; omega
  have hv2 := one_le_varintLen fields.length
  -- the payload is two header varints followed by the sorted fields
  set v1 := encodeVarint seq.toNat
  set v2 := encodeVarint fields.length
  set body := (sortById fields).flatMap encodeField
  have hpay : encodeFullFields seq fields = v1 ++ v2 ++ body ++ [] := by
    simp [encodeFullFields, v1, v2, body]
  have hl1 : v1.length = varintLen seq.toNat := length_encodeVarint hseq
  have hl2 : v2.length = varintLen fields.length := length_encodeVarint hn
  have h1 := readVarint_eq (encodeFullFields seq fields) [] (v2 ++ body) hseq (by simp [hpay, v1])
  have h2 := readVarint_eq (encodeFullFields seq fields) v1 body hn (by simp [hpay, v2])
  have h3 := decodeFields_flatMap (sortById fields) (v1 ++ v2) [] fun f hf => hfit f (hperm.subset hf)
  rw [List.length_nil] at h1
  rw [hl1] at h2
  rw [← hpay, hperm.length_eq, List.length_append, hl1, hl2] at h3
  have hlen : (encodeFullFields seq fields).length =
      varintLen seq.toNat + varintLen fields.length + body.length := by
    simp [hpay, hl1, hl2]
    omega
  simp only [decodeFull, h1, bind, Except.bind]
  rw [if_neg (by omega)]
  simp only [h2, h3, pure, Except.pure, UInt32.ofNat_toNat]

theorem lookup_foldl_insert_sortById (fields : Fields) (hkeys : fields.NodupKeys)
    (m : AList fun _ : UInt32 => List UInt8) (k : UInt32) :
    ((sortById fields).foldl (fun m f => m.insert f.1 f.2) m).lookup k = (fields.dlookup k).or (m.lookup k) := by
  have hperm := perm_sortById fields
  have hsorted : (sortById fields).NodupKeys := (List.perm_nodupKeys hperm).2 hkeys
  rw [AList.lookup_foldl_insert _ hsorted, List.perm_dlookup k hsorted hperm]

theorem decodeDelta_encodeDelta (e : DeltaEncoder) (dirty : Fields) (hkeys : dirty.NodupKeys)
    (hfit : ∀ f ∈ dirty, f.2.length < 2 ^ 64) :
    decodeDelta (e.encodeDelta dirty) = .ok (e.fullSeq, e.patchSeq, sortById dirty) := by
  have hperm := perm_sortById dirty
  have hn : dirty.length < 2 ^ 64 := length_lt_of_nodupKeys hkeys
  have hbase : e.fullSeq.toNat < 2 ^ 64 := by have := e.fullSeq.toNat_lt; omega
  have hpatch : e.patchSeq.toNat < 2 ^ 64 := by have := e.patchSeq.toNat_lt; omega
  have hv2 := one_le_varintLen e.patchSeq.toNat
  have hv3 := one_le_varintLen dirty.length
  -- the payload is three header varints followed by the sorted fields
  set v1 := encodeVarint e.fullSeq.toNat
  set v2 := encodeVarint e.patchSeq.toNat
  set v3 := encodeVarint dirty.length
  set body := (sortById dirty).flatMap encodeField
  have hpay : e.encodeDelta dirty = v1 ++ v2 ++ v3 ++ body ++ [] := by simp [encodeDelta, v1, v2, v3, body]
  have hl1 : v1.length = varintLen e.fullSeq.toNat := length_encodeVarint hbase
  have hl2 : v2.length = varintLen e.patchSeq.toNat := length_encodeVarint hpatch
  have hl3 : v3.length = varintLen dirty.length := length_encodeVarint hn
  have h1 := readVarint_eq (e.encodeDelta dirty) [] (v2 ++ v3 ++ body) hbase (by simp [hpay, v1])
  have h2 := readVarint_eq (e.encodeDelta dirty) v1 (v3 ++ body) hpatch (by simp [hpay, v2])
  have h3 := readVarint_eq (e.encodeDelta dirty) (v1 ++ v2) body hn (by simp [hpay, v3])
  have h4 := decodeFields_flatMap (sortById dirty) (v1 ++ v2 ++ v3) [] fun f hf => hfit f (hperm.subset hf)
  rw [List.length_nil] at h1
  rw [hl1] at h2
  rw [List.length_append, hl1, hl2] at h3
  rw [← hpay, hperm.length_eq, List.length_append, List.length_append, hl1, hl2, hl3] at h4
  have hlen : (e.encodeDelta dirty).length = varintLen e.fullSeq.toNat + varintLen e.patchSeq.toNat +
      varintLen dirty.length + body.length := by
    simp [hpay, hl1, hl2, hl3]
    omega
  simp only [decodeDelta, h1, bind, Except.bind]
  rw [if_neg (by omega)]
  simp only [h2]
  rw [if_neg (by omega)]
  simp only [h3, h4, pure, Except.pure, UInt32.ofNat_toNat]

/-! ## What the encoder holds -/

namespace DeltaEncoder

/-- Every value the encoder holds, and every value of its snapshot, has a length that
`encode_varint` takes. -/
def Fits (e : DeltaEncoder) : Prop :=
  (∀ k f, e.fields.lookup k = some f → f.value.length < 2 ^ 64) ∧
    ∀ k v, e.fullSnapshot.lookup k = some v → v.length < 2 ^ 64

theorem nodupKeys_values (e : DeltaEncoder) : e.values.NodupKeys :=
  List.NodupKeys.map₂ (fun _ => TrackedField.value) _ e.fields.nodupKeys

theorem dlookup_values (e : DeltaEncoder) (k : UInt32) :
    e.values.dlookup k = (e.fields.lookup k).map TrackedField.value :=
  List.dlookup_map₂ (f := fun _ => TrackedField.value) k

theorem Fits.values {e : DeltaEncoder} (h : e.Fits) : ∀ f ∈ e.values, f.2.length < 2 ^ 64 := by
  intro f hf
  obtain ⟨g, hg, rfl⟩ := List.mem_map.mp hf
  exact h.1 g.1 g.2 (AList.mem_lookup_iff.mpr hg)

theorem Fits.snapshot {e : DeltaEncoder} (h : e.Fits) : ∀ f ∈ e.fullSnapshot.entries, f.2.length < 2 ^ 64 :=
  fun f hf => h.2 f.1 f.2 (AList.mem_lookup_iff.mpr hf)

/-- The field `update_field` writes holds the new value, and is clean only if it was already
there with that value. -/
theorem lookup_updateField_self (e : DeltaEncoder) (fieldId : UInt32) (value : List UInt8) :
    ∃ f, (e.updateField fieldId value).fields.lookup fieldId = some f ∧ f.value = value ∧
      (f.dirty = false → e.fields.lookup fieldId = some f) := by
  simp only [updateField]
  refine ⟨_, AList.lookup_insert _, ?_, ?_⟩
  · split_ifs with h
    · rfl
    · exact not_not.mp h
  · split_ifs with h
    · intro hd
      cases hd
    · cases hl : e.fields.lookup fieldId with
      | none =>
        intro hd
        cases hd
      | some g =>
        intro _
        rfl

theorem lookup_updateField_ne (e : DeltaEncoder) {fieldId k : UInt32} (h : k ≠ fieldId) (value : List UInt8) :
    (e.updateField fieldId value).fields.lookup k = e.fields.lookup k :=
  AList.lookup_insert_ne h

/-- `update_field` sets the value of its field and of no other. -/
theorem value_updateField (e : DeltaEncoder) (fieldId : UInt32) (value : List UInt8) (k : UInt32) :
    ((e.updateField fieldId value).fields.lookup k).map TrackedField.value =
      if k = fieldId then some value else (e.fields.lookup k).map TrackedField.value := by
  split_ifs with hk
  · subst hk
    obtain ⟨f, hf, hv, -⟩ := e.lookup_updateField_self k value
    rw [hf, Option.map_some, hv]
  · rw [e.lookup_updateField_ne hk]

theorem lookup_sendFull (e : DeltaEncoder) (now : ℕ) (k : UInt32) :
    (e.sendFull now).1.fields.lookup k =
      (e.fields.lookup k).map fun f => { f with dirty := false, changedThisEpoch := false } :=
  AList.lookup_mapVal _ _ k

theorem lookup_sendDelta (e : DeltaEncoder) (k : UInt32) :
    e.sendDelta.1.fields.lookup k = (e.fields.lookup k).map fun f => { f with dirty := false } :=
  AList.lookup_mapVal _ _ k

theorem values_sendFull (e : DeltaEncoder) (now : ℕ) : (e.sendFull now).1.values = e.values := by
  simp [sendFull, values]

theorem lookup_fullSnapshot_sendFull (e : DeltaEncoder) (now : ℕ) (k : UInt32) :
    (e.sendFull now).1.fullSnapshot.lookup k = (e.fields.lookup k).map TrackedField.value := by
  simp only [sendFull]
  rw [AList.lookup_foldl_insert _ e.nodupKeys_values, AList.lookup_empty, Option.or_none, dlookup_values]

theorem value_sendFull (e : DeltaEncoder) (now : ℕ) (k : UInt32) :
    ((e.sendFull now).1.fields.lookup k).map TrackedField.value = (e.fields.lookup k).map TrackedField.value := by
  rw [lookup_sendFull, Option.map_map]
  rfl

theorem value_sendDelta (e : DeltaEncoder) (k : UInt32) :
    (e.sendDelta.1.fields.lookup k).map TrackedField.value = (e.fields.lookup k).map TrackedField.value := by
  rw [lookup_sendDelta, Option.map_map]
  rfl

/-- The records leave every value as it was. -/
theorem value_pollRecord (e : DeltaEncoder) (now : ℕ) (k : UInt32) :
    ((e.pollRecord now).1.fields.lookup k).map TrackedField.value = (e.fields.lookup k).map TrackedField.value := by
  unfold pollRecord
  split_ifs
  · rfl
  · exact e.value_sendFull now k
  · exact e.value_sendDelta k
  · rfl

theorem Fits.updateField {e : DeltaEncoder} (h : e.Fits) (fieldId : UInt32) {value : List UInt8}
    (hv : value.length < 2 ^ 64) : (e.updateField fieldId value).Fits := by
  refine ⟨fun k f hf => ?_, h.2⟩
  have hval := congrArg (Option.map TrackedField.value) hf
  rw [value_updateField, Option.map_some] at hval
  split_ifs at hval with hk
  · rw [← Option.some.inj hval]
    exact hv
  · obtain ⟨g, hg, hgv⟩ := Option.map_eq_some_iff.mp hval
    rw [← hgv]
    exact h.1 k g hg

theorem Fits.sendFull {e : DeltaEncoder} (h : e.Fits) (now : ℕ) : (e.sendFull now).1.Fits := by
  refine ⟨fun k f hf => ?_, fun k v hv => ?_⟩
  · rw [lookup_sendFull] at hf
    obtain ⟨g, hg, rfl⟩ := Option.map_eq_some_iff.mp hf
    exact h.1 k g hg
  · rw [lookup_fullSnapshot_sendFull] at hv
    obtain ⟨g, hg, rfl⟩ := Option.map_eq_some_iff.mp hv
    exact h.1 k g hg

theorem Fits.sendDelta {e : DeltaEncoder} (h : e.Fits) : e.sendDelta.1.Fits := by
  refine ⟨fun k f hf => ?_, h.2⟩
  rw [lookup_sendDelta] at hf
  obtain ⟨g, hg, rfl⟩ := Option.map_eq_some_iff.mp hf
  exact h.1 k g hg

theorem Fits.pollRecord {e : DeltaEncoder} (h : e.Fits) (now : ℕ) : (e.pollRecord now).1.Fits := by
  unfold DeltaEncoder.pollRecord
  split_ifs
  · exact ⟨h.1, h.2⟩
  · exact h.sendFull now
  · exact h.sendDelta
  · exact h

end DeltaEncoder

/-! ## The decoder in step with the encoder -/

/-- The decoder holds the encoder's FULL, and every field the encoder has not marked dirty
with its current value; it holds no field the encoder lacks. -/
structure Synced (e : DeltaEncoder) (d : DeltaDecoder) : Prop where
  base : d.lastFullSeq = some e.fullSeq
  clean : ∀ k f, e.fields.lookup k = some f → f.dirty = false → d.fields.lookup k = some f.value
  absent : ∀ k, e.fields.lookup k = none → d.fields.lookup k = none

namespace Synced

variable {e : DeltaEncoder} {d : DeltaDecoder}

theorem of_lookup_eq (hbase : d.lastFullSeq = some e.fullSeq)
    (hk : ∀ k, d.fields.lookup k = (e.fields.lookup k).map TrackedField.value) : Synced e d where
  base := hbase
  clean k f hf _ := by rw [hk, hf, Option.map_some]
  absent k hnone := by rw [hk, hnone, Option.map_none]

/-- With no field dirty, the decoder holds exactly the encoder's values. -/
theorem lookup_eq (h : Synced e d) (hclean : e.hasDirtyFields = false) (k : UInt32) :
    d.fields.lookup k = (e.fields.lookup k).map TrackedField.value := by
  cases hk : e.fields.lookup k with
  | none => exact h.absent k hk
  | some f =>
    have hf : (⟨k, f⟩ : Σ _ : UInt32, TrackedField) ∈ e.fields.entries := AList.mem_lookup_iff.mp hk
    have hd : f.dirty = false := by simpa using List.any_eq_false.mp hclean _ hf
    exact h.clean k f hk hd

theorem updateField (h : Synced e d) (fieldId : UInt32) (value : List UInt8) :
    Synced (e.updateField fieldId value) d := by
  obtain ⟨g, hg, -, hgd⟩ := e.lookup_updateField_self fieldId value
  refine ⟨h.base, fun k f hf hd => ?_, fun k hk => ?_⟩
  · by_cases hkid : k = fieldId
    · subst hkid
      rw [hg] at hf
      cases hf
      exact h.clean k g (hgd hd) hd
    · rw [e.lookup_updateField_ne hkid] at hf
      exact h.clean k f hf hd
  · by_cases hkid : k = fieldId
    · subst hkid
      rw [hg] at hk
      cases hk
    · rw [e.lookup_updateField_ne hkid] at hk
      exact h.absent k hk

end Synced

theorem DeltaDecoder.onRecord_full (d : DeltaDecoder) (s seq : UInt32) (fields : Fields)
    (hkeys : fields.NodupKeys) (hfit : ∀ f ∈ fields, f.2.length < 2 ^ 64) :
    d.onRecord (.full s (encodeFullFields seq fields)) =
      .ok { fields := (sortById fields).foldl (fun m f => m.insert f.1 f.2) ∅
            lastFullSeq := some seq
            lastPatchSeq := 0 } := by
  simp only [DeltaDecoder.onRecord, DeltaDecoder.onFull, decodeFull_encodeFullFields seq fields hkeys hfit,
    bind, Except.bind, pure, Except.pure, Except.map]

/-- A FULL brings the decoder in step whatever it held, with every current value. -/
theorem synced_sendFull (e : DeltaEncoder) (d : DeltaDecoder) (now : ℕ) (hfit : e.Fits) :
    ∃ d', d.onRecord (e.sendFull now).2 = .ok d' ∧ Synced (e.sendFull now).1 d' ∧
      ∀ k, d'.fields.lookup k = (e.fields.lookup k).map TrackedField.value := by
  have hrec : (e.sendFull now).2 = .full (e.fullSeq + 1) (encodeFullFields (e.fullSeq + 1) (e.sendFull now).1.values) :=
    rfl
  have hk : ∀ k, ((sortById e.values).foldl (fun (m : AList fun _ => List UInt8) f => m.insert f.1 f.2) ∅).lookup k =
      (e.fields.lookup k).map TrackedField.value := by
    intro k
    rw [lookup_foldl_insert_sortById _ e.nodupKeys_values, AList.lookup_empty, Option.or_none, e.dlookup_values]
  refine ⟨{ fields := (sortById e.values).foldl (fun m f => m.insert f.1 f.2) ∅
            lastFullSeq := some (e.fullSeq + 1)
            lastPatchSeq := 0 }, ?_, Synced.of_lookup_eq rfl fun k => ?_, hk⟩
  · rw [hrec, e.values_sendFull]
    exact d.onRecord_full _ _ _ e.nodupKeys_values hfit.values
  · rw [hk, e.value_sendFull]

/-- A DELTA brings a decoder in step with the encoder's current values. -/
theorem Synced.sendDelta {e : DeltaEncoder} {d : DeltaDecoder} (h : Synced e d) (hfit : e.Fits) :
    ∃ d', d.onRecord e.sendDelta.2 = .ok d' ∧ Synced e.sendDelta.1 d' ∧
      ∀ k, d'.fields.lookup k = (e.fields.lookup k).map TrackedField.value := by
  set dirty : Fields := (e.fields.entries.filter fun f => f.2.dirty).map fun f => ⟨f.1, f.2.value⟩
  have hrec : e.sendDelta.2 =
      .delta e.fullSeq (e.patchSeq + 1) ({ e with patchSeq := e.patchSeq + 1 }.encodeDelta dirty) := rfl
  have hkeys : dirty.NodupKeys :=
    List.NodupKeys.map₂ (fun _ => TrackedField.value) _ (e.fields.nodupKeys.sublist List.filter_sublist)
  have hdirty : ∀ k, dirty.dlookup k = ((e.fields.lookup k).filter (·.dirty)).map TrackedField.value := by
    intro k
    show ((e.fields.entries.filter fun f => f.2.dirty).map
      (@Sigma.map UInt32 UInt32 (fun _ => TrackedField) (fun _ => List UInt8) id fun _ => TrackedField.value)).dlookup k = _
    rw [List.dlookup_map₂ (f := fun _ => TrackedField.value) k,
      AList.dlookup_filter (fun _ f => f.dirty) _ e.fields.nodupKeys k]
    rfl
  have hfitd : ∀ f ∈ dirty, f.2.length < 2 ^ 64 := by
    intro f hf
    obtain ⟨g, hg, rfl⟩ := List.mem_map.mp hf
    exact hfit.1 g.1 g.2 (AList.mem_lookup_iff.mpr (List.mem_filter.mp hg).1)
  -- every field is the DELTA's when dirty and the decoder's own when clean
  have hk : ∀ k, ((sortById dirty).foldl (fun m f => m.insert f.1 f.2) d.fields).lookup k =
      (e.fields.lookup k).map TrackedField.value := by
    intro k
    rw [lookup_foldl_insert_sortById _ hkeys, hdirty]
    cases hf : e.fields.lookup k with
    | none => rw [h.absent k hf]; rfl
    | some f =>
      cases hd : f.dirty
      · rw [Option.filter_some, hd, if_neg Bool.false_ne_true, Option.map_none, h.clean k f hf hd]
        rfl
      · rw [Option.filter_some, hd, if_pos rfl]
        rfl
  refine ⟨{ d with
            fields := (sortById dirty).foldl (fun m f => m.insert f.1 f.2) d.fields
            lastPatchSeq := e.patchSeq + 1 }, ?_, Synced.of_lookup_eq h.base fun k => ?_, hk⟩
  · simp only [hrec, DeltaDecoder.onRecord, DeltaDecoder.onDelta,
      decodeDelta_encodeDelta _ dirty hkeys hfitd, h.base, bind, Except.bind, ne_eq, not_true_eq_false,
      if_false, pure, Except.pure, Except.map]
  · rw [hk, e.value_sendDelta]

/-- A redundant FULL puts the decoder back to the snapshot of the last FULL. -/
theorem onRecord_sendRedundantFull (e : DeltaEncoder) (d : DeltaDecoder) (now : ℕ) (hfit : e.Fits) :
    ∃ d', d.onRecord (e.sendRedundantFull now).2 = .ok d' ∧
      ∀ k, d'.fields.lookup k = e.fullSnapshot.lookup k := by
  refine ⟨_, d.onRecord_full _ _ _ e.fullSnapshot.nodupKeys hfit.snapshot, fun k => ?_⟩
  rw [lookup_foldl_insert_sortById _ e.fullSnapshot.nodupKeys, AList.lookup_empty, Option.or_none]
  rfl

/-- Unless a redundant FULL is due, a poll keeps the decoder in step and leaves it holding
every current value. -/
theorem synced_pollRecord (e : DeltaEncoder) (d : DeltaDecoder) (now : ℕ)
    (hsync : e.lastFullTime = none ∨ Synced e d) (hred : e.needsRedundantFull now = false) (hfit : e.Fits) :
    ∃ d', d.onRecord (e.pollRecord now).2 = .ok d' ∧ Synced (e.pollRecord now).1 d' ∧
      ∀ k, d'.fields.lookup k = (e.fields.lookup k).map TrackedField.value := by
  unfold DeltaEncoder.pollRecord
  rw [hred, if_neg Bool.false_ne_true]
  split_ifs with hfull hdirty
  · exact synced_sendFull e d now hfit
  -- no FULL is due, so one was sent and the decoder is in step
  all_goals have hs : Synced e d := hsync.resolve_left fun hnone => by simp [DeltaEncoder.needsFull, hnone] at hfull
  · exact hs.sendDelta hfit
  · exact ⟨d, rfl, hs, hs.lookup_eq (by simpa using hdirty)⟩

/-! ## Runs of the link -/

/-- An update writes a value whose length `encode_varint` takes. -/
def DeltaCall.Fits : DeltaCall → Prop
  | .updateField _ value => value.length < 2 ^ 64
  | _ => True

namespace DeltaLink

theorem deliver_eq_ok {s s' : DeltaLink} {r : DeltaEncoder × DeltaRecord} (h : s.deliver r = .ok s') :
    ∃ d, s.decoder.onRecord r.2 = .ok d ∧ s' = ⟨r.1, d⟩ := by
  unfold deliver at h
  cases hd : s.decoder.onRecord r.2 with
  | error err =>
    rw [hd] at h
    cases h
  | ok d =>
    rw [hd] at h
    cases h
    exact ⟨d, rfl, rfl⟩

theorem step_deliver {s : DeltaLink} {r : DeltaEncoder × DeltaRecord} {d : DeltaDecoder}
    (h : s.decoder.onRecord r.2 = .ok d) : s.deliver r = .ok ⟨r.1, d⟩ := by
  rw [deliver, h]
  rfl

theorem run_cons_eq_ok {s s' : DeltaLink} {c : DeltaCall} {calls : List DeltaCall}
    (h : s.run (c :: calls) = .ok s') : ∃ s₁, s.step c = .ok s₁ ∧ s₁.run calls = .ok s' := by
  rw [run] at h
  cases h₁ : s.step c with
  | error err =>
    rw [h₁] at h
    cases h
  | ok s₁ =>
    rw [h₁] at h
    exact ⟨s₁, rfl, h⟩

/-- Each call sets the values it writes and leaves the others. -/
theorem value_step {s s' : DeltaLink} {c : DeltaCall} (h : s.step c = .ok s') (k : UInt32) :
    (s'.encoder.fields.lookup k).map TrackedField.value =
      (c.valueFor k).or ((s.encoder.fields.lookup k).map TrackedField.value) := by
  cases c with
  | updateField fieldId value =>
    cases h
    rw [DeltaEncoder.value_updateField, DeltaCall.valueFor]
    split_ifs <;> rfl
  | pollRecord now =>
    obtain ⟨d, -, rfl⟩ := deliver_eq_ok h
    exact s.encoder.value_pollRecord now k
  | forceFull now =>
    obtain ⟨d, -, rfl⟩ := deliver_eq_ok h
    exact s.encoder.value_sendFull now k

/-- After a run the encoder holds the latest value of every field the calls wrote. -/
theorem value_run {s s' : DeltaLink} {calls : List DeltaCall} (h : s.run calls = .ok s') (k : UInt32) :
    (s'.encoder.fields.lookup k).map TrackedField.value =
      (latestValue k calls).or ((s.encoder.fields.lookup k).map TrackedField.value) := by
  induction calls generalizing s with
  | nil =>
    cases h
    rfl
  | cons c calls ih =>
    obtain ⟨s₁, h₁, hrun⟩ := run_cons_eq_ok h
    rw [ih hrun, value_step h₁, latestValue, Option.or_assoc]

theorem fits_step {s s' : DeltaLink} {c : DeltaCall} (h : s.step c = .ok s') (hs : s.encoder.Fits)
    (hc : c.Fits) : s'.encoder.Fits := by
  cases c with
  | updateField fieldId value =>
    cases h
    exact hs.updateField fieldId hc
  | pollRecord now =>
    obtain ⟨d, -, rfl⟩ := deliver_eq_ok h
    exact hs.pollRecord now
  | forceFull now =>
    obtain ⟨d, -, rfl⟩ := deliver_eq_ok h
    exact hs.sendFull now

/-- Every encoder a run reaches holds only values that fit, if every update writes one. -/
theorem fits_run {s s' : DeltaLink} {calls : List DeltaCall} (h : s.run calls = .ok s')
    (hs : s.encoder.Fits) (hc : ∀ c ∈ calls, c.Fits) : s'.encoder.Fits := by
  induction calls generalizing s with
  | nil =>
    cases h
    exact hs
  | cons c calls ih =>
    obtain ⟨s₁, h₁, hrun⟩ := run_cons_eq_ok h
    exact ih hrun (fits_step h₁ hs (hc c List.mem_cons_self)) fun c' hc' => hc c' (List.mem_cons_of_mem c hc')

theorem fits_init (config : DeltaConfig) : (init config).encoder.Fits := by
  unfold DeltaEncoder.Fits
  refine ⟨fun k f h => ?_, fun k v h => ?_⟩ <;> cases h

/-! ### Without redundant FULLs -/

/-- The run invariant when `keyframe_redundancy` is zero: no redundant FULL is ever due, and
once a FULL has gone the decoder is in step. -/
structure Inv (s : DeltaLink) : Prop where
  fits : s.encoder.Fits
  noRedundancy : s.encoder.config.keyframeRedundancy = 0
  remaining : s.encoder.redundantRemaining = 0
  synced : s.encoder.lastFullTime = none ∨ Synced s.encoder s.decoder

theorem Inv.init {config : DeltaConfig} (h : config.keyframeRedundancy = 0) : (init config).Inv :=
  ⟨fits_init config, h, rfl, Or.inl rfl⟩

theorem config_pollRecord (e : DeltaEncoder) (now : ℕ) : (e.pollRecord now).1.config = e.config := by
  unfold DeltaEncoder.pollRecord
  split_ifs <;> rfl

/-- With nothing left to repeat, a poll sends no redundant FULL, and a FULL it sends schedules
the config's number of them. -/
theorem redundantRemaining_pollRecord {e : DeltaEncoder} (now : ℕ) (h : e.redundantRemaining = 0)
    (hc : e.config.keyframeRedundancy = 0) : (e.pollRecord now).1.redundantRemaining = 0 := by
  unfold DeltaEncoder.pollRecord
  split_ifs with hred
  · simp [DeltaEncoder.needsRedundantFull, h] at hred
  · exact hc
  · exact h
  · exact h

/-- One call keeps the invariant, and a call that asks for a record leaves the decoder holding
every current value. -/
theorem Inv.step {s : DeltaLink} (h : s.Inv) (c : DeltaCall) (hc : c.Fits) :
    ∃ s', s.step c = .ok s' ∧ s'.Inv ∧
      (c.isPoll = true → ∀ k, s'.decoder.fields.lookup k = (s'.encoder.fields.lookup k).map TrackedField.value) := by
  cases c with
  | updateField fieldId value =>
    refine ⟨_, rfl, ⟨h.fits.updateField fieldId hc, h.noRedundancy, h.remaining, ?_⟩, fun hp => by cases hp⟩
    exact h.synced.imp id fun hs => hs.updateField fieldId value
  | pollRecord now =>
    have hred : s.encoder.needsRedundantFull now = false := by
      simp [DeltaEncoder.needsRedundantFull, h.remaining]
    obtain ⟨d, hd, hs, hk⟩ := synced_pollRecord s.encoder s.decoder now h.synced hred h.fits
    refine ⟨_, step_deliver hd, ⟨h.fits.pollRecord now, ?_, redundantRemaining_pollRecord now h.remaining
      h.noRedundancy, Or.inr hs⟩, fun _ k => ?_⟩
    · rw [config_pollRecord]
      exact h.noRedundancy
    · rw [hk]
      exact (s.encoder.value_pollRecord now k).symm
  | forceFull now =>
    obtain ⟨d, hd, hs, hk⟩ := synced_sendFull s.encoder s.decoder now h.fits
    refine ⟨_, step_deliver hd, ⟨h.fits.sendFull now, h.noRedundancy, h.noRedundancy, Or.inr hs⟩,
      fun _ k => ?_⟩
    rw [hk]
    exact (s.encoder.value_sendFull now k).symm

/-- Every run keeps the invariant, and one that ends with a call for a record leaves the
decoder holding every current value. -/
theorem Inv.run {s : DeltaLink} (h : s.Inv) (calls : List DeltaCall) (hc : ∀ c ∈ calls, c.Fits) :
    ∃ s', s.run calls = .ok s' ∧ s'.Inv ∧
      ∀ c ∈ calls.getLast?, c.isPoll = true →
        ∀ k, s'.decoder.fields.lookup k = (s'.encoder.fields.lookup k).map TrackedField.value := by
  induction calls generalizing s with
  | nil => exact ⟨s, rfl, h, fun c hc => by cases hc⟩
  | cons c calls ih =>
    obtain ⟨s₁, h₁, hinv₁, hpoll₁⟩ := h.step c (hc c List.mem_cons_self)
    obtain ⟨s', hrun, hinv', hpoll'⟩ := ih hinv₁ fun c' hc' => hc c' (List.mem_cons_of_mem c hc')
    refine ⟨s', by rw [DeltaLink.run, h₁]; exact hrun, hinv', ?_⟩
    cases calls with
    | nil =>
      cases hrun
      intro c' hc'
      cases hc'
      exact hpoll₁
    | cons c'' calls => exact hpoll'

end DeltaLink

/-! ## Convergence, and the redundant FULL -/

/-- Without redundant FULLs the link converges: after every call for a record the decoder
holds the latest value of every field. -/
theorem delta_link_converges_without_redundancy (config : DeltaConfig) (hred : config.keyframeRedundancy = 0)
    (calls : List DeltaCall) (hfit : ∀ c ∈ calls, c.Fits) :
    ∃ s, (DeltaLink.init config).run calls = .ok s ∧
      ∀ c ∈ calls.getLast?, c.isPoll = true → ∀ k, s.decoder.fields.lookup k = latestValue k calls := by
  obtain ⟨s, hrun, -, hpoll⟩ := (DeltaLink.Inv.init hred).run calls hfit
  refine ⟨s, hrun, fun c hc hp k => ?_⟩
  rw [hpoll c hc hp k, DeltaLink.value_run hrun k]
  exact Option.or_none

/-- FULL and DELTA payloads read back, but a redundant FULL hands the decoder the snapshot of
the last FULL while the encoder keeps the current values. -/
theorem redundant_full_reverts_decoder :
    (∀ (seq : UInt32) (fields : Fields), fields.NodupKeys → (∀ f ∈ fields, f.2.length < 2 ^ 64) →
      ∃ m, decodeFull (encodeFullFields seq fields) = .ok (seq, m) ∧ ∀ k, m.lookup k = fields.dlookup k) ∧
    (∀ (e : DeltaEncoder) (dirty : Fields), dirty.NodupKeys → (∀ f ∈ dirty, f.2.length < 2 ^ 64) →
      ∃ sorted, decodeDelta (e.encodeDelta dirty) = .ok (e.fullSeq, e.patchSeq, sorted) ∧ sorted.Perm dirty) ∧
    (∀ (s : DeltaLink) (now : ℕ), s.encoder.Fits → s.encoder.needsRedundantFull now = true →
      ∃ s', s.step (.pollRecord now) = .ok s' ∧
        ∀ k, s'.decoder.fields.lookup k = s.encoder.fullSnapshot.lookup k ∧
          (s'.encoder.fields.lookup k).map TrackedField.value =
            (s.encoder.fields.lookup k).map TrackedField.value) := by
  refine ⟨fun seq fields hkeys hfit => ⟨_, decodeFull_encodeFullFields seq fields hkeys hfit, fun k => ?_⟩,
    fun e dirty hkeys hfit => ⟨_, decodeDelta_encodeDelta e dirty hkeys hfit, perm_sortById dirty⟩,
    fun s now hfit hred => ?_⟩
  · rw [lookup_foldl_insert_sortById _ hkeys, AList.lookup_empty, Option.or_none]
  · have hpoll : s.encoder.pollRecord now = s.encoder.sendRedundantFull now := by
      rw [DeltaEncoder.pollRecord, if_pos hred]
    obtain ⟨d, hd, hk⟩ := onRecord_sendRedundantFull s.encoder s.decoder now hfit
    refine ⟨⟨(s.encoder.pollRecord now).1, d⟩, ?_, fun k => ⟨hk k, s.encoder.value_pollRecord now k⟩⟩
    show s.deliver (s.encoder.pollRecord now) = _
    rw [hpoll]
    exact DeltaLink.step_deliver hd

/-- Field 0 is written, sent in a FULL, rewritten and sent in a DELTA; 200 ms later the
redundant FULL is due. -/
def staleRedundantFull : List DeltaCall :=
  [.updateField 0 [1], .pollRecord 0, .updateField 0 [2], .pollRecord 0, .pollRecord 200]

theorem redundant_full_brings_back_first_value :
    ∃ s, (DeltaLink.init .default).run (staleRedundantFull.take 4) = .ok s ∧
      s.decoder.fields.lookup 0 = some [2] ∧
      ∃ s', s.step (.pollRecord 200) = .ok s' ∧ s'.decoder.fields.lookup 0 = some [1] ∧
        (s'.encoder.fields.lookup 0).map TrackedField.value = some [2] ∧
        latestValue 0 staleRedundantFull = some [2] := by
  have hok : ((DeltaLink.init .default).run (staleRedundantFull.take 4)).isOk = true := by decide +kernel
  cases hrun : (DeltaLink.init .default).run (staleRedundantFull.take 4) with
  | error err =>
    rw [hrun] at hok
    cases hok
  | ok s =>
    -- what the four calls leave, read off the run
    have hview : ((DeltaLink.init .default).run (staleRedundantFull.take 4)).map (fun s =>
        (s.decoder.fields.lookup 0, s.encoder.fullSnapshot.lookup 0,
          (s.encoder.fields.lookup 0).map TrackedField.value, s.encoder.needsRedundantFull 200)) =
        .ok (some [2], some [1], some [2], true) := by decide +kernel
    rw [hrun] at hview
    simp only [Except.map, Except.ok.injEq, Prod.mk.injEq] at hview
    obtain ⟨hdec, hsnap, hval, hred⟩ := hview
    have hfit : s.encoder.Fits := DeltaLink.fits_run hrun (DeltaLink.fits_init _)
      (by simp [staleRedundantFull, DeltaCall.Fits])
    obtain ⟨s', hstep, hk⟩ := redundant_full_reverts_decoder.2.2 s 200 hfit hred
    exact ⟨s, rfl, hdec, s', hstep, (hk 0).1.trans hsnap, (hk 0).2.trans hval, rfl⟩

theorem converges_on_stale_run_without_redundancy :
    ∃ s, (DeltaLink.init ⟨5000, 0, 200, 64⟩).run staleRedundantFull = .ok s ∧
      ∀ c ∈ staleRedundantFull.getLast?, c.isPoll = true →
        ∀ k, s.decoder.fields.lookup k = latestValue k staleRedundantFull :=
  delta_link_converges_without_redundancy _ rfl _ (by simp [staleRedundantFull, DeltaCall.Fits])

end Hdds.Lowbw
