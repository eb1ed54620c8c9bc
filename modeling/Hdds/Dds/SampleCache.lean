import Hdds.Foundations.Bytes
import Hdds.Foundations.Machine
import Hdds.Foundations.Positions

/-! # The DataReader sample cache

`dds/reader/cache.rs`: `SampleCache` keeps the samples a `DataReader` received, oldest first. The
`read` family copies samples out and marks them `Read`, the `take` family removes them. Two notions
of "already read" live side by side: the positional `read_cursor` that `read` and `read_batch`
advance and every removal moves back, and the per-sample flag that only `read_instance` and
`read_instance_batch` consult. A run of the cache is a `Machine` over `CacheOp`s whose outputs are
the data handed to the application.

* The `AtomicBool` state of a `CachedSample` is the `Bool` field `state` (`false` is `NotRead`);
  `mark_read` through a shared reference is an update of the buffer in place.
* `usize` and `u64` values are `ℕ`; `total_received` is counted and read by nothing modelled.
* `SampleCache::new(0)` is left out: with `max_samples = 0` the eviction loop of `push` never
  exits once the buffer is empty. The structure carries `0 < maxSamples`.
* `Valid` is what every run keeps: at most `maxSamples` samples with distinct sequence numbers,
  the cursor within the buffer and only `Read` samples before it. Removals move the cursor as
  `Positions.RemovesAround` says; the read family changes flags only (`Marks`).
-/

namespace Hdds.Dds
open Wire Positions
open scoped List
set_option autoImplicit false

/-- `SampleState`. -/
inductive SampleState
  | notRead
  | read
deriving DecidableEq, Repr

/-- `InstanceHandle`: the key hash of an instance. -/
structure InstanceHandle where
  keyHash : ByteArr 16
deriving DecidableEq, Repr

/-- `InstanceHandle::nil`, the handle of every sample of a keyless topic. -/
def InstanceHandle.nil : InstanceHandle := ⟨ByteArr.zero 16⟩

/-- `CachedSample<T>`; `state` is `true` once the sample is `Read`. -/
structure CachedSample (α : Type*) where
  data : α
  seq : ℕ
  timestampNs : ℕ
  instanceHandle : InstanceHandle
  state : Bool
deriving DecidableEq, Repr

namespace CachedSample

variable {α : Type*}

/-- `CachedSample::new`: a sample of a keyless topic. -/
def new (data : α) (seq timestampNs : ℕ) : CachedSample α :=
  ⟨data, seq, timestampNs, .nil, false⟩

/-- `CachedSample::with_instance`. -/
def withInstance (data : α) (seq timestampNs : ℕ) (instanceHandle : InstanceHandle) :
    CachedSample α :=
  ⟨data, seq, timestampNs, instanceHandle, false⟩

/-- `CachedSample::sample_state`. -/
def sampleState (s : CachedSample α) : SampleState :=
  if s.state then .read else .notRead

/-- `CachedSample::mark_read`. -/
def markRead (s : CachedSample α) : CachedSample α := { s with state := true }

@[simp] theorem sampleState_markRead (s : CachedSample α) : s.markRead.sampleState = .read := rfl
@[simp] theorem seq_markRead (s : CachedSample α) : s.markRead.seq = s.seq := rfl
@[simp] theorem data_markRead (s : CachedSample α) : s.markRead.data = s.data := rfl
@[simp] theorem markRead_markRead (s : CachedSample α) : s.markRead.markRead = s.markRead := rfl

end CachedSample

/-- `SampleCache<T>`, with the history depth it was created with. -/
structure SampleCache (α : Type*) where
  buffer : List (CachedSample α)
  readCursor : ℕ
  maxSamples : ℕ
  totalReceived : ℕ
  maxSamples_pos : 0 < maxSamples

/-- The operations of the cache a reader calls. -/
inductive CacheOp (α : Type*)
  | push (sample : CachedSample α)
  | read
  | readBatch (max : ℕ)
  | readInstance (handle : InstanceHandle)
  | readInstanceBatch (handle : InstanceHandle) (max : ℕ)
  | take
  | takeBatch (max : ℕ)
  | takeInstance (handle : InstanceHandle)
  | takeInstanceBatch (handle : InstanceHandle) (max : ℕ)
  | resetReadCursor
  | clear

/-- The take family: `take`, `take_batch`, `take_instance` and `take_instance_batch`. -/
def CacheOp.IsTake {α : Type*} : CacheOp α → Prop
  | .take => True
  | .takeBatch _ => True
  | .takeInstance _ => True
  | .takeInstanceBatch _ _ => True
  | _ => False

/-- The sequence number an operation pushes, accepted or not. -/
def CacheOp.pushedSeq {α : Type*} : CacheOp α → List ℕ
  | .push sample => [sample.seq]
  | _ => []

/-- The sequence numbers a run pushes, in order. -/
def pushedSeqs {α : Type*} (ops : List (CacheOp α)) : List ℕ := ops.flatMap CacheOp.pushedSeq

namespace SampleCache

variable {α : Type*}

/-- `SampleCache::new`. -/
def new (maxSamples : ℕ) (h : 0 < maxSamples) : SampleCache α := ⟨[], 0, maxSamples, 0, h⟩

/-- The history-depth loop of `push`: `pop_front` while the buffer is full, moving the cursor back
with every sample dropped. On an empty buffer the loop exits since `0 < maxSamples`. -/
def enforceDepth (maxSamples : ℕ) : List (CachedSample α) → ℕ → List (CachedSample α) × ℕ
  | [], cursor => ([], cursor)
  | s :: rest, cursor =>
    if maxSamples ≤ (s :: rest).length then enforceDepth maxSamples rest (cursor - 1)
    else (s :: rest, cursor)

/-- `SampleCache::push`: a sample whose sequence number is already cached is dropped. -/
def push (c : SampleCache α) (sample : CachedSample α) : SampleCache α :=
  if c.buffer.any (fun s => s.seq == sample.seq) then c
  else
    let kept := enforceDepth c.maxSamples c.buffer c.readCursor
    { c with
      buffer := kept.1 ++ [sample]
      readCursor := kept.2
      totalReceived := c.totalReceived + 1 }

/-- `SampleCache::take`. -/
def take (c : SampleCache α) : SampleCache α × Option α :=
  match c.buffer with
  | [] => (c, none)
  | s :: rest => ({ c with buffer := rest, readCursor := c.readCursor - 1 }, some s.data)

/-- `SampleCache::take_batch`. -/
def takeBatch (c : SampleCache α) (max : ℕ) : SampleCache α × List α :=
  let count := min max c.buffer.length
  ({ c with buffer := c.buffer.drop count, readCursor := c.readCursor - count },
    (c.buffer.take count).map (·.data))

/-- `SampleCache::reset_read_cursor`. -/
def resetReadCursor (c : SampleCache α) : SampleCache α := { c with readCursor := 0 }

/-- `SampleCache::clear`. -/
def clear (c : SampleCache α) : SampleCache α := { c with buffer := [], readCursor := 0 }

/-- `SampleCache::take_instance`: remove the oldest sample of `handle`. -/
def takeInstance (c : SampleCache α) (handle : InstanceHandle) : SampleCache α × Option α :=
  match c.buffer.findIdx? (fun s => s.instanceHandle == handle) with
  | none => (c, none)
  | some pos =>
    match c.buffer[pos]? with
    | none => (c, none)
    | some s =>
      ({ c with
          buffer := c.buffer.eraseIdx pos
          readCursor := if pos < c.readCursor then c.readCursor - 1 else c.readCursor },
        some s.data)

/-- The body of the removal loop of `take_instance_batch`: keep the data of the removed sample and
count it when it stood before the cursor. -/
def collectRemoved (cursor : ℕ) (acc : List α × ℕ) (idx : ℕ) (s : CachedSample α) : List α × ℕ :=
  (acc.1 ++ [s.data], if idx < cursor then acc.2 + 1 else acc.2)

/-- `SampleCache::take_instance_batch`: collect the positions of the first `max` samples of
`handle`, remove them from the highest down, then put the data back in buffer order. -/
def takeInstanceBatch (c : SampleCache α) (handle : InstanceHandle) (max : ℕ) :
    SampleCache α × List α :=
  let cursor := c.readCursor
  let indices :=
    ((c.buffer.zipIdx.filter fun q => q.1.instanceHandle == handle).take max).map (·.2)
  let removed := indices.reverse.foldl (eraseWith (collectRemoved cursor)) (c.buffer, ([], 0))
  let readCursor := if 0 < removed.2.2 then cursor - removed.2.2 else cursor
  ({ c with buffer := removed.1, readCursor := readCursor }, removed.2.1.reverse)

/-- `SampleCache::read`: the sample at the cursor, whatever its state. -/
def read (c : SampleCache α) : SampleCache α × Option α :=
  match c.buffer[c.readCursor]? with
  | none => (c, none)
  | some s =>
    ({ c with
        buffer := c.buffer.modify c.readCursor CachedSample.markRead
        readCursor := c.readCursor + 1 },
      some s.data)

/-- `SampleCache::read_batch`: at most `max` rounds of the body of `read`, leaving the loop at the
end of the buffer. -/
def readBatch : SampleCache α → ℕ → SampleCache α × List α
  | c, 0 => (c, [])
  | c, max + 1 =>
    match c.read with
    | (c', some d) => ((readBatch c' max).1, d :: (readBatch c' max).2)
    | (c', none) => (c', [])

/-- The scan of `read_instance`: mark and copy the first `NotRead` sample of `handle`. -/
def readInstanceScan (handle : InstanceHandle) :
    List (CachedSample α) → List (CachedSample α) × Option α
  | [] => ([], none)
  | s :: rest =>
    if s.instanceHandle = handle ∧ s.sampleState = .notRead then (s.markRead :: rest, some s.data)
    else (s :: (readInstanceScan handle rest).1, (readInstanceScan handle rest).2)

/-- `SampleCache::read_instance`. -/
def readInstance (c : SampleCache α) (handle : InstanceHandle) : SampleCache α × Option α :=
  ({ c with buffer := (readInstanceScan handle c.buffer).1 }, (readInstanceScan handle c.buffer).2)

/-- The scan of `read_instance_batch`, with `taken` the length of the result so far. -/
def readInstanceBatchScan (handle : InstanceHandle) (max : ℕ) :
    List (CachedSample α) → ℕ → List (CachedSample α) × List α
  | [], _ => ([], [])
  | s :: rest, taken =>
    if max ≤ taken then (s :: rest, [])
    else if s.instanceHandle = handle ∧ s.sampleState = .notRead then
      (s.markRead :: (readInstanceBatchScan handle max rest (taken + 1)).1,
        s.data :: (readInstanceBatchScan handle max rest (taken + 1)).2)
    else
      (s :: (readInstanceBatchScan handle max rest taken).1,
        (readInstanceBatchScan handle max rest taken).2)

/-- `SampleCache::read_instance_batch`. -/
def readInstanceBatch (c : SampleCache α) (handle : InstanceHandle) (max : ℕ) :
    SampleCache α × List α :=
  ({ c with buffer := (readInstanceBatchScan handle max c.buffer 0).1 },
    (readInstanceBatchScan handle max c.buffer 0).2)

/-- One operation, with the data it hands to the application. -/
def step (c : SampleCache α) : CacheOp α → SampleCache α × List α
  | .push sample => (c.push sample, [])
  | .read => (c.read.1, c.read.2.toList)
  | .readBatch max => c.readBatch max
  | .readInstance handle => ((c.readInstance handle).1, (c.readInstance handle).2.toList)
  | .readInstanceBatch handle max => c.readInstanceBatch handle max
  | .take => (c.take.1, c.take.2.toList)
  | .takeBatch max => c.takeBatch max
  | .takeInstance handle => ((c.takeInstance handle).1, (c.takeInstance handle).2.toList)
  | .takeInstanceBatch handle max => c.takeInstanceBatch handle max
  | .resetReadCursor => (c.resetReadCursor, [])
  | .clear => (c.clear, [])

/-! ## One lemma per operation -/

section Spec

variable (c : SampleCache α)

theorem enforceDepth_eq (m : ℕ) (hm : 0 < m) (l : List (CachedSample α)) (cursor : ℕ) :
    ∃ k, enforceDepth m l cursor = (l.drop k, cursor - k) ∧ (l.drop k).length < m := by
  induction l generalizing cursor with
  | nil => exact ⟨0, rfl, hm⟩
  | cons s rest ih =>
    by_cases hfull : m ≤ (s :: rest).length
    · -- one more `pop_front`, then the loop on the rest
      obtain ⟨k, hk, hlt⟩ := ih (cursor - 1)
      refine ⟨k + 1, ?_, by simpa using hlt⟩
      rw [enforceDepth, if_pos hfull, hk, Nat.sub_sub, Nat.add_comm 1 k, List.drop_succ_cons]
    · exact ⟨0, by rw [enforceDepth, if_neg hfull]; rfl, by simpa using hfull⟩

theorem push_of_any (sample : CachedSample α)
    (h : c.buffer.any (fun s => s.seq == sample.seq) = true) : c.push sample = c := by
  rw [push, if_pos h]

/-- An accepted sample goes to the back after the oldest samples made room for it. -/
theorem push_of_not_any (sample : CachedSample α)
    (h : c.buffer.any (fun s => s.seq == sample.seq) = false) :
    ∃ k, c.push sample =
      { c with
        buffer := c.buffer.drop k ++ [sample]
        readCursor := c.readCursor - k
        totalReceived := c.totalReceived + 1 } ∧
      (c.buffer.drop k).length < c.maxSamples := by
  obtain ⟨k, hk, hlt⟩ := enforceDepth_eq c.maxSamples c.maxSamples_pos c.buffer c.readCursor
  exact ⟨k, by rw [push, if_neg (by simp [h]), hk], hlt⟩

/-- `take` is `take_batch` with `max = 1`. -/
theorem take_eq_takeBatch_one : (c.take.1, c.take.2.toList) = c.takeBatch 1 := by
  obtain ⟨buffer, cursor, maxSamples, total, hpos⟩ := c
  cases buffer with
  | nil => simp [take, takeBatch]
  | cons s rest => simp [take, takeBatch]

theorem read_of_getElem? (s : CachedSample α) (h : c.buffer[c.readCursor]? = some s) :
    c.read =
      ({ c with
          buffer := c.buffer.modify c.readCursor CachedSample.markRead
          readCursor := c.readCursor + 1 },
        some s.data) := by
  rw [read, h]

theorem read_of_length_le (h : c.buffer.length ≤ c.readCursor) : c.read = (c, none) := by
  rw [read, List.getElem?_eq_none h]

/-- `read` at a cursor that splits the buffer as `A ++ s :: B`. -/
theorem read_of_split {A B : List (CachedSample α)} {s : CachedSample α}
    (h : c.buffer = A ++ s :: B) (hA : A.length = c.readCursor) :
    c.read =
      ({ c with buffer := A ++ s.markRead :: B, readCursor := c.readCursor + 1 }, some s.data) := by
  have hat : c.buffer[c.readCursor]? = some s := by
    rw [h, ← hA, List.getElem?_append_right (Nat.le_refl _), Nat.sub_self, List.getElem?_cons_zero]
  rw [read_of_getElem? c s hat, h, ← hA, List.modify_eq_take_cons_drop (by simp)]
  simp

/-- `take_instance` when a sample of `handle` sits at `pos`. -/
theorem takeInstance_of_findIdx? (handle : InstanceHandle) (pos : ℕ)
    (h : c.buffer.findIdx? (fun s => s.instanceHandle == handle) = some pos) :
    ∃ hpos : pos < c.buffer.length, c.takeInstance handle =
      ({ c with
          buffer := c.buffer.eraseIdx pos
          readCursor := if pos < c.readCursor then c.readCursor - 1 else c.readCursor },
        some c.buffer[pos].data) := by
  obtain ⟨hpos, -, -⟩ := List.findIdx?_eq_some_iff_getElem.mp h
  refine ⟨hpos, ?_⟩
  rw [takeInstance, h]
  simp only [List.getElem?_eq_getElem hpos]

theorem takeInstance_of_findIdx?_none (handle : InstanceHandle)
    (h : c.buffer.findIdx? (fun s => s.instanceHandle == handle) = none) :
    c.takeInstance handle = (c, none) := by
  rw [takeInstance, h]

/-- The fold of `collectRemoved` keeps the data in fold order and counts the positions before the
cursor. -/
theorem foldl_collectRemoved (cursor : ℕ) (qs : List (CachedSample α × ℕ)) (acc : List α × ℕ) :
    qs.foldl (fun b q => collectRemoved cursor b q.2 q.1) acc =
      (acc.1 ++ qs.map (·.1.data), acc.2 + (qs.filter fun q => q.2 < cursor).length) := by
  induction qs generalizing acc with
  | nil => simp
  | cons q qs ih =>
    rw [List.foldl_cons, ih]
    by_cases hq : q.2 < cursor
    · simp [collectRemoved, hq, Nat.add_assoc, Nat.add_comm 1]
    · simp [collectRemoved, hq]

/-- `take_instance_batch` removes the first `max` samples of `handle`, returns their data in buffer
order, and moves the cursor back by those it removed before it. -/
theorem takeInstanceBatch_eq (handle : InstanceHandle) (max : ℕ)
    (hc : c.readCursor ≤ c.buffer.length) :
    c.takeInstanceBatch handle max =
      ({ c with
          buffer := (pickFirst (fun s => s.instanceHandle == handle) max c.buffer).2
          readCursor := (pickFirst (fun s => s.instanceHandle == handle) max
            (c.buffer.take c.readCursor)).2.length },
        (pickFirst (fun s => s.instanceHandle == handle) max c.buffer).1.map (·.data)) := by
  have hfold := foldl_eraseWith (fun s : CachedSample α => s.instanceHandle == handle)
    (collectRemoved c.readCursor) [] c.buffer max ([], 0)
  have hcount := length_filter_lt_take_filter_zipIdx
    (fun s : CachedSample α => s.instanceHandle == handle) max 0 c.readCursor c.buffer
  have hpicked := map_fst_take_filter_zipIdx
    (fun s : CachedSample α => s.instanceHandle == handle) max 0 c.buffer
  have hsplit := length_pickFirst (fun s : CachedSample α => s.instanceHandle == handle) max
    (c.buffer.take c.readCursor)
  rw [List.length_take, Nat.min_eq_left hc] at hsplit
  simp only [List.nil_append, List.length_nil, Nat.zero_add] at hfold hcount
  simp only [takeInstanceBatch, hfold, foldl_collectRemoved, List.nil_append, Nat.zero_add,
    List.map_reverse, List.reverse_reverse, List.filter_reverse, List.length_reverse, hcount]
  congr 1
  · -- both branches of the cursor update subtract the count
    congr 1
    split <;> omega
  · rw [← hpicked, List.map_map]
    rfl

example :
    (Machine.run step (new 10 (by decide))
      [CacheOp.push (.withInstance (10 : ℕ) 1 0 ⟨⟨1 :: List.replicate 15 0, rfl⟩⟩),
        .push (.withInstance 20 2 0 .nil),
        .push (.withInstance 11 3 0 ⟨⟨1 :: List.replicate 15 0, rfl⟩⟩),
        .push (.withInstance 12 4 0 ⟨⟨1 :: List.replicate 15 0, rfl⟩⟩),
        .takeInstanceBatch ⟨⟨1 :: List.replicate 15 0, rfl⟩⟩ 2]).2 = [10, 11] := by
  decide

end Spec

/-! ## The invariant -/

/-- What every run of the cache keeps. -/
structure Valid (c : SampleCache α) : Prop where
  length_le : c.buffer.length ≤ c.maxSamples
  seqs_nodup : (c.buffer.map (·.seq)).Nodup
  cursor_le : c.readCursor ≤ c.buffer.length
  read_before : ∀ s ∈ c.buffer.take c.readCursor, s.sampleState = .read

theorem valid_new (m : ℕ) (hm : 0 < m) : (new m hm : SampleCache α).Valid where
  length_le := by simp [new]
  seqs_nodup := by simp [new]
  cursor_le := by simp [new]
  read_before := by simp [new]

variable {c c' : SampleCache α}

theorem Valid.removes (hv : c.Valid)
    (h : RemovesAround c.buffer c.readCursor c'.buffer c'.readCursor)
    (hmax : c'.maxSamples = c.maxSamples) : c'.Valid where
  length_le := hmax ▸ h.sublist.length_le.trans hv.length_le
  seqs_nodup := (h.sublist.map _).nodup hv.seqs_nodup
  cursor_le := h.cursor_le
  read_before s hs := hv.read_before s (h.take_sublist.subset hs)

/-- What the read family does to the buffer: some samples are marked `Read`, nothing else
changes. -/
def Marks (l l' : List (CachedSample α)) : Prop :=
  List.Forall₂ (fun s s' => s' = s ∨ s' = s.markRead) l l'

theorem Marks.refl (l : List (CachedSample α)) : Marks l l :=
  List.forall₂_same.mpr fun _ _ => Or.inl rfl

theorem Marks.map_seq {l l' : List (CachedSample α)} (h : Marks l l') :
    l'.map (·.seq) = l.map (·.seq) := by
  induction h with
  | nil => rfl
  | cons hs _ ih =>
    rcases hs with rfl | rfl
    · simp [ih]
    · simp [ih]

theorem Marks.take_read {l l' : List (CachedSample α)} (h : Marks l l') (n : ℕ)
    (hread : ∀ s ∈ l.take n, s.sampleState = .read) :
    ∀ s ∈ l'.take n, s.sampleState = .read := by
  induction h generalizing n with
  | nil => simp
  | @cons a b l l' hab _ ih =>
    cases n with
    | zero => simp
    | succ n =>
      simp only [List.take_succ_cons, List.mem_cons, forall_eq_or_imp] at hread ⊢
      refine ⟨?_, ih n hread.2⟩
      rcases hab with rfl | rfl
      · exact hread.1
      · simp

theorem Valid.marks (hv : c.Valid) (h : Marks c.buffer c'.buffer)
    (hcur : c'.readCursor = c.readCursor) (hmax : c'.maxSamples = c.maxSamples) : c'.Valid where
  length_le := by rw [← h.length_eq, hmax]; exact hv.length_le
  seqs_nodup := by rw [h.map_seq]; exact hv.seqs_nodup
  cursor_le := by rw [hcur, ← h.length_eq]; exact hv.cursor_le
  read_before := by rw [hcur]; exact h.take_read _ hv.read_before

theorem Valid.append (hv : c.Valid) (sample : CachedSample α)
    (hnew : sample.seq ∉ c.buffer.map (·.seq)) (hroom : c.buffer.length < c.maxSamples)
    (hbuf : c'.buffer = c.buffer ++ [sample]) (hcur : c'.readCursor = c.readCursor)
    (hmax : c'.maxSamples = c.maxSamples) : c'.Valid where
  length_le := by rw [hbuf, hmax, List.length_append, List.length_singleton]; omega
  seqs_nodup := by
    rw [hbuf, List.map_append, List.nodup_append]
    exact ⟨hv.seqs_nodup, by simp, by simpa using hnew⟩
  cursor_le := by rw [hbuf, hcur, List.length_append]; exact hv.cursor_le.trans (by omega)
  read_before s hs := by
    rw [hbuf, hcur, List.take_append_of_le_length hv.cursor_le] at hs
    exact hv.read_before s hs

/-- `read` at a cursor that splits the buffer as `A ++ s :: B` keeps the invariant: the sample it
passes is marked. -/
theorem Valid.advance (hv : c.Valid) {A B : List (CachedSample α)} {s : CachedSample α}
    (h : c.buffer = A ++ s :: B) (hA : A.length = c.readCursor) :
    ({ c with buffer := A ++ s.markRead :: B, readCursor := c.readCursor + 1 } :
      SampleCache α).Valid where
  length_le := by
    have hle := hv.length_le
    rw [h] at hle
    simpa using hle
  seqs_nodup := by
    have hnd := hv.seqs_nodup
    rw [h] at hnd
    simpa using hnd
  cursor_le := by simp; omega
  read_before t ht := by
    have hbefore : ∀ t ∈ A, t.sampleState = .read := by
      intro t ht
      exact hv.read_before t (by rw [h, ← hA, List.take_left' rfl]; exact ht)
    dsimp only at ht
    rw [← hA, List.take_append, List.take_of_length_le (by omega), Nat.add_sub_cancel_left,
      List.take_succ_cons, List.take_zero] at ht
    rcases List.mem_append.mp ht with hA' | hs'
    · exact hbefore t hA'
    · rw [List.mem_singleton.mp hs']
      simp

/-! ## Every operation keeps the invariant -/

section Steps

variable {c : SampleCache α}

theorem maxSamples_readBatch (max : ℕ) :
    ∀ c : SampleCache α, (c.readBatch max).1.maxSamples = c.maxSamples := by
  induction max with
  | zero => intro c; rfl
  | succ max ih =>
    intro c
    have hread : c.read.1.maxSamples = c.maxSamples := by
      unfold read
      split
      · rfl
      · rfl
    rcases h : c.read with ⟨c', _ | d⟩
    · simp only [readBatch, h]
      rw [h] at hread
      exact hread
    · simp only [readBatch, h]
      rw [h] at hread
      rw [ih c', hread]

theorem maxSamples_step : ∀ op : CacheOp α, (c.step op).1.maxSamples = c.maxSamples
  | .push sample => by
    simp only [step, push]
    split
    · rfl
    · rfl
  | .read => by
    simp only [step, read]
    split
    · rfl
    · rfl
  | .readBatch max => maxSamples_readBatch max c
  | .readInstance _ => rfl
  | .readInstanceBatch _ _ => rfl
  | .take => by
    simp only [step, take]
    split
    · rfl
    · rfl
  | .takeBatch _ => rfl
  | .takeInstance _ => by
    simp only [step, takeInstance]
    split
    · rfl
    · split
      · rfl
      · rfl
  | .takeInstanceBatch _ _ => rfl
  | .resetReadCursor => rfl
  | .clear => rfl

theorem removesAround_takeBatch (hv : c.Valid) (max : ℕ) :
    RemovesAround c.buffer c.readCursor (c.takeBatch max).1.buffer (c.takeBatch max).1.readCursor :=
  removesAround_drop c.buffer c.readCursor _ hv.cursor_le

theorem take_fst_eq : c.take.1 = (c.takeBatch 1).1 := congrArg Prod.fst c.take_eq_takeBatch_one

theorem removesAround_takeInstance (hv : c.Valid) (handle : InstanceHandle) :
    RemovesAround c.buffer c.readCursor (c.takeInstance handle).1.buffer
      (c.takeInstance handle).1.readCursor := by
  cases hpos : c.buffer.findIdx? (fun s => s.instanceHandle == handle) with
  | none =>
    rw [c.takeInstance_of_findIdx?_none handle hpos]
    simpa using removesAround_drop c.buffer c.readCursor 0 hv.cursor_le
  | some pos =>
    obtain ⟨_, h⟩ := c.takeInstance_of_findIdx? handle pos hpos
    rw [h]
    exact removesAround_eraseIdx c.buffer c.readCursor pos hv.cursor_le

theorem removesAround_takeInstanceBatch (hv : c.Valid) (handle : InstanceHandle) (max : ℕ) :
    RemovesAround c.buffer c.readCursor (c.takeInstanceBatch handle max).1.buffer
      (c.takeInstanceBatch handle max).1.readCursor := by
  rw [c.takeInstanceBatch_eq handle max hv.cursor_le]
  exact removesAround_pickFirst _ _ _ _

theorem Valid.push (hv : c.Valid) (sample : CachedSample α) : (c.push sample).Valid := by
  cases hany : c.buffer.any (fun s => s.seq == sample.seq)
  · obtain ⟨k, hpush, hroom⟩ := c.push_of_not_any sample hany
    -- the evictions first, then the append
    have hmid : ({ c with buffer := c.buffer.drop k, readCursor := c.readCursor - k } :
        SampleCache α).Valid :=
      hv.removes (removesAround_drop c.buffer c.readCursor k hv.cursor_le) rfl
    have hnew : sample.seq ∉ (c.buffer.drop k).map (·.seq) := by
      intro hmem
      obtain ⟨t, ht, hseq⟩ := List.mem_map.mp (((List.drop_sublist k c.buffer).map _).subset hmem)
      have hne := List.any_eq_false.mp hany t ht
      simp [hseq] at hne
    rw [hpush]
    exact hmid.append sample hnew hroom rfl rfl rfl
  · rw [c.push_of_any sample hany]
    exact hv

theorem Valid.read (hv : c.Valid) : c.read.1.Valid := by
  cases hs : c.buffer[c.readCursor]? with
  | none =>
    rw [SampleCache.read, hs]
    exact hv
  | some s =>
    have hA : (c.buffer.take c.readCursor).length = c.readCursor :=
      List.length_take_of_le hv.cursor_le
    rw [c.read_of_split (eq_take_append_cons_drop hs) hA]
    exact hv.advance (eq_take_append_cons_drop hs) hA

theorem Valid.readBatch (max : ℕ) : ∀ c : SampleCache α, c.Valid → (c.readBatch max).1.Valid := by
  induction max with
  | zero => intro c hv; exact hv
  | succ max ih =>
    intro c hv
    have hread := hv.read
    rcases h : c.read with ⟨c', _ | d⟩
    · simp only [SampleCache.readBatch, h]
      rw [h] at hread
      exact hread
    · simp only [SampleCache.readBatch, h]
      rw [h] at hread
      exact ih c' hread

theorem marks_readInstanceScan (handle : InstanceHandle) (l : List (CachedSample α)) :
    Marks l (readInstanceScan handle l).1 := by
  induction l with
  | nil => exact List.Forall₂.nil
  | cons s rest ih =>
    rw [readInstanceScan]
    split
    · exact List.Forall₂.cons (Or.inr rfl) (Marks.refl rest)
    · exact List.Forall₂.cons (Or.inl rfl) ih

theorem marks_readInstanceBatchScan (handle : InstanceHandle) (max : ℕ)
    (l : List (CachedSample α)) (taken : ℕ) :
    Marks l (readInstanceBatchScan handle max l taken).1 := by
  induction l generalizing taken with
  | nil => exact List.Forall₂.nil
  | cons s rest ih =>
    rw [readInstanceBatchScan]
    split
    · exact Marks.refl _
    · split
      · exact List.Forall₂.cons (Or.inr rfl) (ih _)
      · exact List.Forall₂.cons (Or.inl rfl) (ih _)

theorem Valid.step (hv : c.Valid) : ∀ op : CacheOp α, (c.step op).1.Valid
  | .push sample => hv.push sample
  | .read => hv.read
  | .readBatch max => hv.readBatch max c
  | .readInstance handle => hv.marks (marks_readInstanceScan handle c.buffer) rfl rfl
  | .readInstanceBatch handle max =>
    hv.marks (marks_readInstanceBatchScan handle max c.buffer 0) rfl rfl
  | .take => by
    show c.take.1.Valid
    rw [take_fst_eq]
    exact hv.removes (removesAround_takeBatch hv 1) rfl
  | .takeBatch max => hv.removes (removesAround_takeBatch hv max) rfl
  | .takeInstance handle =>
    hv.removes (removesAround_takeInstance hv handle) (maxSamples_step (.takeInstance handle))
  | .takeInstanceBatch handle max => hv.removes (removesAround_takeInstanceBatch hv handle max) rfl
  | .resetReadCursor =>
    ⟨hv.length_le, hv.seqs_nodup, Nat.zero_le _, by simp [SampleCache.step, resetReadCursor]⟩
  | .clear => by
    refine ⟨?_, ?_, ?_, ?_⟩
    all_goals simp [SampleCache.step, SampleCache.clear]

theorem valid_run (ops : List (CacheOp α)) (hv : c.Valid) : (Machine.run step c ops).1.Valid :=
  Machine.run_invariant step Valid (fun _ op hv => hv.step op) c ops hv

theorem maxSamples_run (ops : List (CacheOp α)) :
    (Machine.run step c ops).1.maxSamples = c.maxSamples :=
  Machine.run_invariant step (fun c' => c'.maxSamples = c.maxSamples)
    (fun _ op h => (maxSamples_step op).trans h) c ops rfl

end Steps

/-! ## Runs: order, cursor and what the take family returns -/

section Runs

variable {c : SampleCache α}

theorem Marks.split (A B : List (CachedSample α)) (s : CachedSample α) :
    Marks (A ++ s :: B) (A ++ s.markRead :: B) := by
  induction A with
  | nil => exact List.Forall₂.cons (Or.inr rfl) (Marks.refl B)
  | cons a A ih => exact List.Forall₂.cons (Or.inl rfl) ih

theorem marks_read : Marks c.buffer c.read.1.buffer := by
  cases hs : c.buffer[c.readCursor]? with
  | none =>
    rw [SampleCache.read, hs]
    exact Marks.refl _
  | some s =>
    have hlt := (List.getElem?_eq_some_iff.mp hs).1
    have hA : (c.buffer.take c.readCursor).length = c.readCursor := List.length_take_of_le hlt.le
    rw [c.read_of_split (eq_take_append_cons_drop hs) hA]
    conv_lhs => rw [eq_take_append_cons_drop hs]
    exact Marks.split _ _ s

theorem map_seq_readBatch (max : ℕ) :
    ∀ c : SampleCache α, (c.readBatch max).1.buffer.map (·.seq) = c.buffer.map (·.seq) := by
  induction max with
  | zero => intro c; rfl
  | succ max ih =>
    intro c
    have hread : c.read.1.buffer.map (·.seq) = c.buffer.map (·.seq) := marks_read.map_seq
    rcases h : c.read with ⟨c', _ | d⟩
    · simp only [readBatch, h]
      rw [h] at hread
      exact hread
    · simp only [readBatch, h]
      rw [h] at hread
      rw [ih c', hread]

/-- One operation adds at most the sample it pushes to the sequence numbers of the buffer. -/
theorem seqs_step (hv : c.Valid) : ∀ op : CacheOp α,
    (c.step op).1.buffer.map (·.seq) <+ c.buffer.map (·.seq) ++ op.pushedSeq
  | .push sample => by
    cases hany : c.buffer.any (fun s => s.seq == sample.seq)
    · obtain ⟨k, hpush, -⟩ := c.push_of_not_any sample hany
      simp only [step, hpush, CacheOp.pushedSeq, List.map_append, List.map_cons, List.map_nil]
      exact ((List.drop_sublist k _).map _).append (List.Sublist.refl _)
    · simp only [step, c.push_of_any sample hany]
      exact List.sublist_append_left _ _
  | .read => by
    simp only [step, marks_read.map_seq, CacheOp.pushedSeq, List.append_nil, List.Sublist.refl]
  | .readBatch max => by
    simp only [step, map_seq_readBatch, CacheOp.pushedSeq, List.append_nil, List.Sublist.refl]
  | .readInstance handle => by
    simp only [step, readInstance, (marks_readInstanceScan handle c.buffer).map_seq,
      CacheOp.pushedSeq, List.append_nil, List.Sublist.refl]
  | .readInstanceBatch handle max => by
    simp only [step, readInstanceBatch, (marks_readInstanceBatchScan handle max c.buffer 0).map_seq,
      CacheOp.pushedSeq, List.append_nil, List.Sublist.refl]
  | .take => by
    simp only [step, take_fst_eq, CacheOp.pushedSeq, List.append_nil]
    exact (removesAround_takeBatch hv 1).sublist.map _
  | .takeBatch max => by
    simp only [step, CacheOp.pushedSeq, List.append_nil]
    exact (removesAround_takeBatch hv max).sublist.map _
  | .takeInstance handle => by
    simp only [step, CacheOp.pushedSeq, List.append_nil]
    exact (removesAround_takeInstance hv handle).sublist.map _
  | .takeInstanceBatch handle max => by
    simp only [step, CacheOp.pushedSeq, List.append_nil]
    exact (removesAround_takeInstanceBatch hv handle max).sublist.map _
  | .resetReadCursor => by simp [step, resetReadCursor, CacheOp.pushedSeq]
  | .clear => by simp [step, SampleCache.clear, CacheOp.pushedSeq]

/-- The buffer of a run holds pushed samples in push order. -/
theorem seqs_run (ops : List (CacheOp α)) :
    ∀ c : SampleCache α, c.Valid →
      (Machine.run step c ops).1.buffer.map (·.seq) <+ c.buffer.map (·.seq) ++ pushedSeqs ops := by
  induction ops with
  | nil => intro c _; simp
  | cons op ops ih =>
    intro c hv
    rw [Machine.run_cons, pushedSeqs, List.flatMap_cons, ← List.append_assoc]
    exact (ih _ (hv.step op)).trans ((seqs_step hv op).append_right _)

/-- What a take returns: the data of the samples it removed, each once and in buffer order. -/
def Takes (l l' : List (CachedSample α)) (out : List α) : Prop :=
  ∃ removed : List (CachedSample α), out = removed.map (·.data) ∧ removed <+ l ∧ removed ++ l' ~ l

theorem takes_takeBatch (max : ℕ) :
    Takes c.buffer (c.takeBatch max).1.buffer (c.takeBatch max).2 :=
  ⟨c.buffer.take (min max c.buffer.length), rfl, List.take_sublist _ _,
    List.Perm.of_eq (List.take_append_drop _ _)⟩

theorem takes_takeInstance (handle : InstanceHandle) :
    Takes c.buffer (c.takeInstance handle).1.buffer (c.takeInstance handle).2.toList := by
  cases hpos : c.buffer.findIdx? (fun s => s.instanceHandle == handle) with
  | none =>
    rw [c.takeInstance_of_findIdx?_none handle hpos]
    exact ⟨[], rfl, List.nil_sublist _, List.Perm.refl _⟩
  | some pos =>
    obtain ⟨hlt, h⟩ := c.takeInstance_of_findIdx? handle pos hpos
    rw [h]
    exact ⟨[c.buffer[pos]], rfl, List.singleton_sublist.mpr (List.getElem_mem hlt),
      perm_cons_eraseIdx c.buffer pos hlt⟩

theorem takes_takeInstanceBatch (hv : c.Valid) (handle : InstanceHandle) (max : ℕ) :
    Takes c.buffer (c.takeInstanceBatch handle max).1.buffer (c.takeInstanceBatch handle max).2 := by
  rw [c.takeInstanceBatch_eq handle max hv.cursor_le]
  exact ⟨_, rfl, pickFirst_fst_sublist _ _ _, perm_pickFirst _ _ _⟩

theorem takes_step (hv : c.Valid) :
    ∀ op : CacheOp α, op.IsTake → Takes c.buffer (c.step op).1.buffer (c.step op).2
  | .take, _ => by
    rw [show c.step .take = c.takeBatch 1 from c.take_eq_takeBatch_one]
    exact takes_takeBatch 1
  | .takeBatch max, _ => takes_takeBatch max
  | .takeInstance handle, _ => takes_takeInstance handle
  | .takeInstanceBatch handle max, _ => takes_takeInstanceBatch hv handle max
  | .push _, h => False.elim h
  | .read, h => False.elim h
  | .readBatch _, h => False.elim h
  | .readInstance _, h => False.elim h
  | .readInstanceBatch _ _, h => False.elim h
  | .resetReadCursor, h => False.elim h
  | .clear, h => False.elim h

theorem read_snd : c.read.2 = (c.buffer.drop c.readCursor).head?.map (·.data) := by
  rw [List.head?_drop]
  cases hs : c.buffer[c.readCursor]? with
  | none => rw [SampleCache.read, hs]; rfl
  | some s => rw [SampleCache.read, hs]; rfl

/-- `read_instance` passes over `Read` samples. -/
theorem readInstanceScan_append_of_read (handle : InstanceHandle) (A L : List (CachedSample α))
    (hA : ∀ t ∈ A, t.sampleState = .read) :
    readInstanceScan handle (A ++ L) =
      (A ++ (readInstanceScan handle L).1, (readInstanceScan handle L).2) := by
  induction A with
  | nil => rfl
  | cons t A ih =>
    have ht : ¬(t.instanceHandle = handle ∧ t.sampleState = .notRead) := by
      rw [hA t List.mem_cons_self]
      simp
    rw [List.cons_append, readInstanceScan, if_neg ht,
      ih (fun u hu => hA u (List.mem_cons_of_mem t hu))]
    rfl

/-- Under the invariant, `read_instance` for the handle of an unread sample at the cursor marks
that sample and hands it out; `read` then hands it out again. -/
theorem read_returns_sample_read_by_instance (m : ℕ) (hm : 0 < m) (ops : List (CacheOp α))
    (handle : InstanceHandle) (s : CachedSample α) :
    (let c := (Machine.run step (new m hm) ops).1
     c.buffer[c.readCursor]? = some s → s.instanceHandle = handle → s.sampleState = .notRead →
       (c.readInstance handle).2 = some s.data ∧
       (c.readInstance handle).1.buffer[c.readCursor]? = some s.markRead ∧
       (c.readInstance handle).1.read.2 = some s.data) := by
  intro c hat hh hnew
  have hv : c.Valid := valid_run ops (valid_new m hm)
  obtain ⟨A, B, hbuf, hA⟩ : ∃ A B, c.buffer = A ++ s :: B ∧ A.length = c.readCursor :=
    ⟨_, _, eq_take_append_cons_drop hat, List.length_take_of_le hv.cursor_le⟩
  -- every sample before the cursor is `Read`, so the scan stops at the cursor
  have hbefore : ∀ t ∈ A, t.sampleState = .read := fun t ht =>
    hv.read_before t (by rw [hbuf, ← hA, List.take_left' rfl]; exact ht)
  have hscan : readInstanceScan handle c.buffer = (A ++ s.markRead :: B, some s.data) := by
    rw [hbuf, readInstanceScan_append_of_read handle A _ hbefore, readInstanceScan,
      if_pos ⟨hh, hnew⟩]
  have hat' : (c.readInstance handle).1.buffer[c.readCursor]? = some s.markRead := by
    simp only [readInstance, hscan]
    rw [← hA, List.getElem?_append_right (Nat.le_refl _), Nat.sub_self, List.getElem?_cons_zero]
  refine ⟨by simp only [readInstance, hscan], hat', ?_⟩
  rw [read_snd, List.head?_drop]
  simp only [readInstance] at hat' ⊢
  rw [hat']
  rfl

/-- A keyless topic: `read_instance(nil)` and then `read()` both return the first sample. -/
theorem read_returns_sample_read_by_instance_keyless :
    (let c := (Machine.run step (new 10 (by decide))
        [CacheOp.push (CachedSample.new (10 : ℕ) 1 0), .push (CachedSample.new 20 2 0)]).1
     (c.readInstance .nil).2 = some 10 ∧ (c.readInstance .nil).1.read.2 = some 10) := by
  have h := read_returns_sample_read_by_instance 10 (by decide)
    [CacheOp.push (CachedSample.new (10 : ℕ) 1 0), .push (CachedSample.new 20 2 0)] .nil
    (CachedSample.new 10 1 0) (by decide) rfl rfl
  exact ⟨h.1, h.2.2⟩

/-- Every run from `SampleCache::new` keeps the history depth, distinct sequence numbers in push
order and the cursor within the buffer; `read` returns the sample after exactly `readCursor` others,
and the take family returns exactly the samples it removes from the buffer. -/
theorem cache_runs_keep_order_and_cursor (m : ℕ) (hm : 0 < m) (ops : List (CacheOp α)) :
    (let c := (Machine.run step (new m hm) ops).1
     c.buffer.length ≤ m ∧ (c.buffer.map (·.seq)).Nodup ∧
     c.buffer.map (·.seq) <+ pushedSeqs ops ∧
     c.readCursor ≤ c.buffer.length ∧
     c.read.2 = (c.buffer.drop c.readCursor).head?.map (·.data) ∧
     (∀ s ∈ c.buffer.take c.readCursor, s.sampleState = .read) ∧
     ∀ op : CacheOp α, op.IsTake → Takes c.buffer (c.step op).1.buffer (c.step op).2) := by
  intro c
  have hv : c.Valid := valid_run ops (valid_new m hm)
  have hmax : c.maxSamples = m := maxSamples_run ops
  refine ⟨hmax ▸ hv.length_le, hv.seqs_nodup, ?_, hv.cursor_le, read_snd, hv.read_before,
    fun op hop => takes_step hv op hop⟩
  have hseqs := seqs_run ops (new m hm) (valid_new m hm)
  rwa [show (new m hm : SampleCache α).buffer = [] from rfl, List.map_nil, List.nil_append] at hseqs

/-- A run that evicts, reads and removes by instance. -/
theorem cache_runs_keep_order_and_cursor_evicting :
    (let c := (Machine.run step (new 2 (by decide))
        [CacheOp.push (CachedSample.new (10 : ℕ) 1 0), .read, .push (CachedSample.new 20 2 0),
          .push (CachedSample.new 30 3 0), .takeInstanceBatch .nil 1]).1
     c.buffer.length ≤ 2 ∧ (c.buffer.map (·.seq)).Nodup ∧
     c.buffer.map (·.seq) <+ [1, 2, 3] ∧
     c.readCursor ≤ c.buffer.length ∧
     c.read.2 = (c.buffer.drop c.readCursor).head?.map (·.data) ∧
     (∀ s ∈ c.buffer.take c.readCursor, s.sampleState = .read) ∧
     ∀ op : CacheOp ℕ, op.IsTake → Takes c.buffer (c.step op).1.buffer (c.step op).2) :=
  cache_runs_keep_order_and_cursor 2 (by decide) _

end Runs

end SampleCache

end Hdds.Dds
