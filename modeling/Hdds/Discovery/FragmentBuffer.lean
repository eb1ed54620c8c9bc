import Hdds.Discovery.Classifier
import Hdds.Foundations.Assoc

/-! # The fragment reassembly buffer

`core/discovery/fragment_buffer.rs`: DATA_FRAG fragments are kept per `(writerGUID, seqNum)`
until a set holds as many fragments as the latest `total_frags` says, and are then
concatenated in fragment order.

* Both `HashMap`s are `AList`s, which carry the uniqueness of their keys. The iteration order
  of the source's `HashMap` is unspecified; it is read as the order of the entries, which only
  decides between equally old sets in `evict_lru`.
* `Instant::now()` is an explicit `now` in milliseconds. The source address kept for NACK_FRAG
  is left out.
* `HoldsPart` is what the buffer knows of one message while it is incomplete; `HoldsPart.insert`
  is one fragment of it arriving, and shows that the message comes out whole exactly when its
  last missing fragment arrives, as long as every fragment number lies in `1 ..= total` and the
  total stays the same.
* Completion is decided by the number of fragments held, so fragment numbers outside
  `1 ..= total` and a total that changes break it (`fragment_numbers_unchecked`).
-/

namespace Hdds.Discovery
set_option autoImplicit false

/-- `FragmentSet` (without the source address). -/
structure FragmentSet where
  fragments : AList (fun _ : ℕ => List UInt8)
  totalFragments : ℕ
  firstSeen : ℕ
  lastUpdated : ℕ

/-- `FragmentBuffer`. -/
structure FragmentBuffer where
  pending : AList (fun _ : Guid × ℕ => FragmentSet)
  maxPending : ℕ
  timeoutMs : ℕ

namespace FragmentBuffer

/-- `FragmentBuffer::new`. -/
def new (maxPending timeoutMs : ℕ) : FragmentBuffer := ⟨∅, maxPending, timeoutMs⟩

/-- `reassemble_static`: fragments `1 ..= total_fragments` in order; a missing one adds
nothing. -/
def reassembleStatic (fragSet : FragmentSet) : List UInt8 :=
  (List.range' 1 fragSet.totalFragments).flatMap fun fragNum =>
    (fragSet.fragments.lookup fragNum).getD []

/-- The key `min_by_key(last_updated)` picks: the first entry whose `last_updated` is least. -/
def oldestKey (entries : List (Σ _ : Guid × ℕ, FragmentSet)) : Option (Guid × ℕ) :=
  (entries.foldl (fun oldest e =>
    match oldest with
    | none => some e
    | some o => if e.2.lastUpdated < o.2.lastUpdated then some e else some o) none).map (·.1)

/-- `evict_lru`. -/
def evictLru (b : FragmentBuffer) : FragmentBuffer :=
  match oldestKey b.pending.entries with
  | some key => { b with pending := b.pending.erase key }
  | none => b

/-- The set `insert_fragment` holds for `key` before its completeness check: the existing one
or a new one, with `last_updated`, the latest `total_frags` and the fragment, which overwrites
a duplicate. -/
def storeFragment (b : FragmentBuffer) (now : ℕ) (key : Guid × ℕ) (fragNum totalFrags : ℕ)
    (data : List UInt8) : FragmentSet :=
  let fragSet := (b.pending.lookup key).getD ⟨∅, totalFrags, now, now⟩
  { fragSet with lastUpdated := now, totalFragments := totalFrags,
                 fragments := fragSet.fragments.insert fragNum data }

/-- `insert_fragment` at time `now`: the new buffer and the reassembled payload, if the set is
complete. -/
def insertFragment (b : FragmentBuffer) (now : ℕ) (writerGuid : Guid) (seqNum fragNum totalFrags : ℕ)
    (data : List UInt8) : FragmentBuffer × Option (List UInt8) :=
  let key := (writerGuid, seqNum)
  let fragSet := b.storeFragment now key fragNum totalFrags data
  if fragSet.fragments.keys.length = totalFrags then
    ({ b with pending := b.pending.erase key }, some (reassembleStatic fragSet))
  else
    let b := { b with pending := b.pending.insert key fragSet }
    (if b.pending.keys.length > b.maxPending then b.evictLru else b, none)

/-- `evict_expired`: drop the sets older than the timeout; the count of those dropped. -/
def evictExpired (b : FragmentBuffer) (now : ℕ) : FragmentBuffer × ℕ :=
  let kept := b.pending.entries.filter fun e => decide (now - e.2.firstSeen ≤ b.timeoutMs)
  ({ b with pending := ⟨kept, List.NodupKeys.sublist List.filter_sublist b.pending.nodupKeys⟩ },
    b.pending.entries.length - kept.length)

/-- `get_missing_fragments`. -/
def getMissingFragments (b : FragmentBuffer) (writerGuid : Guid) (seqNum : ℕ) :
    Option (List ℕ × ℕ) :=
  (b.pending.lookup (writerGuid, seqNum)).map fun fragSet =>
    ((List.range' 1 fragSet.totalFragments).filter (· ∉ fragSet.fragments), fragSet.totalFragments)

/-- `get_stale_sequences` at time `now`: the pending sets at least `min_age_ms` old, with
`total_fragments - fragments.len()` as the release build computes it, wrapping below zero. The
source address is left out. -/
def getStaleSequences (b : FragmentBuffer) (now minAgeMs : ℕ) : List (Guid × ℕ × ℕ × ℕ × ℕ) :=
  b.pending.entries.filterMap fun e =>
    let age := now - e.2.firstSeen
    if age ≥ minAgeMs then
      some (e.1.1, e.1.2, Wire.wrappingSub 64 e.2.totalFragments e.2.fragments.keys.length,
        e.2.totalFragments, age)
    else none

/-! ## One fragment -/

@[simp] theorem storeFragment_totalFragments (b : FragmentBuffer) (now : ℕ) (key : Guid × ℕ)
    (fragNum totalFrags : ℕ) (data : List UInt8) :
    (b.storeFragment now key fragNum totalFrags data).totalFragments = totalFrags := rfl

theorem lookup_storeFragment (b : FragmentBuffer) (now : ℕ) (key : Guid × ℕ)
    (fragNum totalFrags : ℕ) (data : List UInt8) (j : ℕ) :
    (b.storeFragment now key fragNum totalFrags data).fragments.lookup j =
      if j = fragNum then some data
      else (b.pending.lookup key).bind fun fragSet => fragSet.fragments.lookup j := by
  unfold storeFragment
  split
  · rename_i hj
    subst hj
    exact AList.lookup_insert _
  · rename_i hj
    rw [AList.lookup_insert_ne hj]
    cases b.pending.lookup key <;> simp [AList.lookup_empty]

theorem insertFragment_of_complete {b : FragmentBuffer} {now : ℕ} {writerGuid : Guid}
    {seqNum fragNum totalFrags : ℕ} {data : List UInt8}
    (h : (b.storeFragment now (writerGuid, seqNum) fragNum totalFrags data).fragments.keys.length =
      totalFrags) :
    b.insertFragment now writerGuid seqNum fragNum totalFrags data =
      ({ b with pending := b.pending.erase (writerGuid, seqNum) },
        some (reassembleStatic (b.storeFragment now (writerGuid, seqNum) fragNum totalFrags data))) := by
  simp only [insertFragment, h, if_true]

theorem insertFragment_of_incomplete {b : FragmentBuffer} {now : ℕ} {writerGuid : Guid}
    {seqNum fragNum totalFrags : ℕ} {data : List UInt8}
    (h : (b.storeFragment now (writerGuid, seqNum) fragNum totalFrags data).fragments.keys.length ≠
      totalFrags)
    (hroom : (b.pending.insert (writerGuid, seqNum)
      (b.storeFragment now (writerGuid, seqNum) fragNum totalFrags data)).keys.length ≤
        b.maxPending) :
    b.insertFragment now writerGuid seqNum fragNum totalFrags data =
      ({ b with pending := (b.pending.insert (writerGuid, seqNum)
          (b.storeFragment now (writerGuid, seqNum) fragNum totalFrags data)) }, none) := by
  simp only [insertFragment, h, if_false]
  rw [if_neg (by simpa using hroom)]

/-! ## One message -/

section Message

variable (key : Guid × ℕ) (n : ℕ) (chunk : ℕ → List UInt8)

/-- What the buffer holds of a message of `n` fragments whose fragment `j` is `chunk j`, when
it has received the fragments numbered in `S`: nothing of any other key, and for this key a
set of total `n` holding exactly those fragments. -/
structure HoldsPart (b : FragmentBuffer) (S : Finset ℕ) : Prop where
  only : ∀ k ∈ b.pending, k = key
  total : ∀ fragSet, b.pending.lookup key = some fragSet → fragSet.totalFragments = n
  view : ∀ j, ((b.pending.lookup key).bind fun fragSet => fragSet.fragments.lookup j) =
    if j ∈ S then some (chunk j) else none
  room : 0 < b.maxPending

theorem holdsPart_new {maxPending : ℕ} (timeoutMs : ℕ) (h : 0 < maxPending) :
    HoldsPart key n chunk (new maxPending timeoutMs) ∅ :=
  ⟨by simp [new, AList.notMem_empty], by simp [new, AList.lookup_empty],
    by simp [new, AList.lookup_empty], h⟩

/-- The keys of a fragment map are the fragment numbers it holds. -/
theorem keys_toFinset_eq {fragments : AList (fun _ : ℕ => List UInt8)} {S : Finset ℕ}
    (h : ∀ j, (fragments.lookup j).isSome ↔ j ∈ S) : fragments.keys.toFinset = S := by
  ext j
  rw [List.mem_toFinset, ← AList.mem_keys, ← AList.lookup_isSome, h]

/-- The stored set after fragment `j` arrives holds the fragments of `insert j S`. -/
theorem HoldsPart.lookup_store {b : FragmentBuffer} {S : Finset ℕ} (h : HoldsPart key n chunk b S)
    (now j : ℕ) (i : ℕ) :
    (b.storeFragment now key j n (chunk j)).fragments.lookup i =
      if i ∈ insert j S then some (chunk i) else none := by
  rw [lookup_storeFragment, h.view i]
  by_cases hij : i = j
  · subst hij
    simp
  · simp [hij]

theorem HoldsPart.keys_length_store {b : FragmentBuffer} {S : Finset ℕ}
    (h : HoldsPart key n chunk b S) (now j : ℕ) :
    (b.storeFragment now key j n (chunk j)).fragments.keys.length = (insert j S).card := by
  have hkeys := keys_toFinset_eq (S := insert j S) (fun i => by
    rw [h.lookup_store key n chunk now j i]
    split <;> simp_all)
  rw [← hkeys, List.toFinset_card_of_nodup (AList.keys_nodup _)]

/-- One fragment of the message arriving: the buffer hands the message out whole when this
fragment completes it, and otherwise holds one more fragment. -/
theorem HoldsPart.insert {b : FragmentBuffer} {S : Finset ℕ} (h : HoldsPart key n chunk b S)
    (hS : S ⊆ Finset.Icc 1 n) (now j : ℕ) (hj : j ∈ Finset.Icc 1 n) :
    let r := b.insertFragment now key.1 key.2 j n (chunk j)
    if insert j S = Finset.Icc 1 n then r.2 = some ((List.range' 1 n).flatMap chunk)
    else r.2 = none ∧ HoldsPart key n chunk r.1 (insert j S) := by
  obtain ⟨writerGuid, seqNum⟩ := key
  dsimp only
  have hsub : insert j S ⊆ Finset.Icc 1 n := Finset.insert_subset hj hS
  have hlen := h.keys_length_store (writerGuid, seqNum) n chunk now j
  split
  · rename_i hfull
    have hcard : (insert j S).card = n := by simp [hfull]
    rw [insertFragment_of_complete (by rw [hlen, hcard])]
    simp only [reassembleStatic, storeFragment_totalFragments]
    congr 1
    refine List.flatMap_congr fun i hi => ?_
    rw [h.lookup_store (writerGuid, seqNum) n chunk now j i, if_pos (by rw [hfull]; simp at hi ⊢; omega)]
    rfl
  · rename_i hpart
    have hcard : (insert j S).card ≠ n := fun hc =>
      hpart (Finset.eq_of_subset_of_card_le hsub (by simp [hc]))
    -- the message's key is the only one the buffer holds
    have honly : ∀ k ∈ b.pending.insert (writerGuid, seqNum)
        (b.storeFragment now (writerGuid, seqNum) j n (chunk j)), k = (writerGuid, seqNum) := by
      intro k hk
      rcases (AList.mem_insert _).mp hk with hk | hk
      · exact hk
      · exact h.only k hk
    have hone : (b.pending.insert (writerGuid, seqNum)
        (b.storeFragment now (writerGuid, seqNum) j n (chunk j))).keys.length ≤ 1 := by
      have hsub : (b.pending.insert (writerGuid, seqNum)
          (b.storeFragment now (writerGuid, seqNum) j n (chunk j))).keys ⊆ [(writerGuid, seqNum)] :=
        fun k hk => List.mem_singleton.mpr (honly k (AList.mem_keys.mpr hk))
      exact ((AList.keys_nodup _).subperm hsub).length_le
    rw [insertFragment_of_incomplete (by rw [hlen]; exact hcard) (by have := h.room; omega)]
    refine ⟨rfl, ⟨honly, ?_, ?_, h.room⟩⟩
    · intro fragSet hfragSet
      rw [AList.lookup_insert] at hfragSet
      cases hfragSet
      rfl
    · intro i
      rw [AList.lookup_insert, Option.bind_some]
      exact h.lookup_store (writerGuid, seqNum) n chunk now j i

end Message

/-! ## Fragments of one key, with any numbers and totals -/

section Trace

variable {b : FragmentBuffer} {now : ℕ} {writerGuid : Guid} {seqNum fragNum totalFrags : ℕ}
  {data : List UInt8}

/-- The first fragment of a key: a new set holding it, unless it alone makes up the message. -/
theorem insertFragment_fresh (hfresh : (writerGuid, seqNum) ∉ b.pending) (htotal : totalFrags ≠ 1)
    (hroom : b.pending.keys.length < b.maxPending) :
    b.insertFragment now writerGuid seqNum fragNum totalFrags data =
      ({ b with pending := (b.pending.insert (writerGuid, seqNum)
          ⟨(∅ : AList (fun _ : ℕ => List UInt8)).insert fragNum data, totalFrags, now, now⟩) },
        none) := by
  have hstore : b.storeFragment now (writerGuid, seqNum) fragNum totalFrags data =
      ⟨(∅ : AList (fun _ : ℕ => List UInt8)).insert fragNum data, totalFrags, now, now⟩ := by
    simp [storeFragment, AList.lookup_eq_none.mpr hfresh]
  rw [insertFragment_of_incomplete, hstore]
  · rw [hstore]
    simpa using htotal.symm
  · rw [AList.length_keys_insert_of_not_mem hfresh]
    omega

/-- A later fragment of a pending key that does not complete its set. -/
theorem insertFragment_pending_incomplete {fragSet : FragmentSet}
    (hset : b.pending.lookup (writerGuid, seqNum) = some fragSet)
    (hcount : (fragSet.fragments.insert fragNum data).keys.length ≠ totalFrags)
    (hroom : b.pending.keys.length ≤ b.maxPending) :
    b.insertFragment now writerGuid seqNum fragNum totalFrags data =
      ({ b with pending := (b.pending.insert (writerGuid, seqNum)
          { fragSet with
            lastUpdated := now
            totalFragments := totalFrags
            fragments := fragSet.fragments.insert fragNum data }) }, none) := by
  have hstore : b.storeFragment now (writerGuid, seqNum) fragNum totalFrags data =
      { fragSet with
        lastUpdated := now
        totalFragments := totalFrags
        fragments := fragSet.fragments.insert fragNum data } := by
    simp [storeFragment, hset]
  rw [insertFragment_of_incomplete, hstore]
  · rw [hstore]
    exact hcount
  · rw [AList.length_keys_insert_of_mem (AList.lookup_isSome.mp (by rw [hset]; rfl))]
    exact hroom

/-- A later fragment of a pending key that completes its set, by the count. -/
theorem insertFragment_pending_complete {fragSet : FragmentSet}
    (hset : b.pending.lookup (writerGuid, seqNum) = some fragSet)
    (hcount : (fragSet.fragments.insert fragNum data).keys.length = totalFrags) :
    b.insertFragment now writerGuid seqNum fragNum totalFrags data =
      ({ b with pending := b.pending.erase (writerGuid, seqNum) },
        some (reassembleStatic
          { fragSet with
            lastUpdated := now
            totalFragments := totalFrags
            fragments := fragSet.fragments.insert fragNum data })) := by
  have hstore : b.storeFragment now (writerGuid, seqNum) fragNum totalFrags data =
      { fragSet with
        lastUpdated := now
        totalFragments := totalFrags
        fragments := fragSet.fragments.insert fragNum data } := by
    simp [storeFragment, hset]
  rw [insertFragment_of_complete, hstore]
  rw [hstore]
  exact hcount

end Trace

/-- Fragment numbers and totals are taken as they come. Fragments 0 and 2 of a message of two
complete it, and the message comes out as fragment 2 alone, fragment 1 never having arrived.
Fragments 1, 2 and 3 of a message of three, the last announcing a total of two, leave a set of
three fragments for a total of two, whose missing count `get_stale_sequences` computes as
`2 - 3`, wrapping to `2 ^ 64 - 1`. -/
theorem fragment_numbers_unchecked (b : FragmentBuffer) (now : ℕ) (writerGuid : Guid)
    (seqNum : ℕ) (hfresh : (writerGuid, seqNum) ∉ b.pending)
    (hroom : b.pending.keys.length < b.maxPending) (d0 d1 d2 d3 : List UInt8) :
    (let r0 := b.insertFragment now writerGuid seqNum 0 2 d0
    let r2 := r0.1.insertFragment now writerGuid seqNum 2 2 d2
    r0.2 = none ∧ r2.2 = some d2 ∧ (writerGuid, seqNum) ∉ r2.1.pending) ∧
    (let s1 := b.insertFragment now writerGuid seqNum 1 3 d1
    let s2 := s1.1.insertFragment now writerGuid seqNum 2 3 d2
    let s3 := s2.1.insertFragment now writerGuid seqNum 3 2 d3
    s1.2 = none ∧ s2.2 = none ∧ s3.2 = none ∧
      (writerGuid, seqNum, 2 ^ 64 - 1, 2, 0) ∈ s3.1.getStaleSequences now 0) := by
  have hroom' : b.pending.keys.length + 1 ≤ b.maxPending := hroom
  refine ⟨?_, ?_⟩
  · dsimp only
    rw [insertFragment_fresh hfresh (by norm_num) hroom]
    dsimp only
    rw [insertFragment_pending_complete (AList.lookup_insert _) (by simp [AList.keys_insert])]
    refine ⟨rfl, ?_, fun h => (AList.mem_erase.mp h).1 rfl⟩
    simp [reassembleStatic, List.range'_succ, AList.lookup_insert_ne, AList.lookup_empty,
      -AList.insert_empty]
  · dsimp only
    rw [insertFragment_fresh hfresh (by norm_num) hroom]
    dsimp only
    rw [insertFragment_pending_incomplete (AList.lookup_insert _) (by simp [AList.keys_insert])
      (by rw [AList.length_keys_insert_of_not_mem hfresh]; exact hroom')]
    dsimp only
    rw [insertFragment_pending_incomplete (AList.lookup_insert _) (by simp [AList.keys_insert])
      (by rw [AList.length_keys_insert_of_mem ((AList.mem_insert _).mpr (Or.inl rfl)),
        AList.length_keys_insert_of_not_mem hfresh]; exact hroom')]
    refine ⟨rfl, rfl, rfl, ?_⟩
    simp only [getStaleSequences, List.mem_filterMap]
    refine ⟨_, AList.mem_lookup_iff.mp (AList.lookup_insert _), ?_⟩
    simp [AList.keys_insert, Wire.wrappingSub]

theorem fragment_numbers_unchecked_new_buffer :
    ((⟨Wire.ByteArr.zero 12, Wire.ByteArr.zero 4⟩ : Guid), 1) ∉ (new 256 500).pending ∧
      (new 256 500).pending.keys.length < (new 256 500).maxPending ∧
      (let r0 := (new 256 500).insertFragment 0 ⟨Wire.ByteArr.zero 12, Wire.ByteArr.zero 4⟩ 1 0 2 [0xA0]
      let r2 := r0.1.insertFragment 0 ⟨Wire.ByteArr.zero 12, Wire.ByteArr.zero 4⟩ 1 2 2 [0xA2]
      r0.2 = none ∧ r2.2 = some [0xA2] ∧ (⟨Wire.ByteArr.zero 12, Wire.ByteArr.zero 4⟩, 1) ∉ r2.1.pending) ∧
      (let s1 := (new 256 500).insertFragment 0 ⟨Wire.ByteArr.zero 12, Wire.ByteArr.zero 4⟩ 1 1 3 [0xA1]
      let s2 := s1.1.insertFragment 0 ⟨Wire.ByteArr.zero 12, Wire.ByteArr.zero 4⟩ 1 2 3 [0xA2]
      let s3 := s2.1.insertFragment 0 ⟨Wire.ByteArr.zero 12, Wire.ByteArr.zero 4⟩ 1 3 2 [0xA3]
      s1.2 = none ∧ s2.2 = none ∧ s3.2 = none ∧
        (⟨Wire.ByteArr.zero 12, Wire.ByteArr.zero 4⟩, 1, 2 ^ 64 - 1, 2, 0) ∈ s3.1.getStaleSequences 0 0) :=
  have hfresh : ((⟨Wire.ByteArr.zero 12, Wire.ByteArr.zero 4⟩ : Guid), 1) ∉ (new 256 500).pending :=
    AList.notMem_empty _
  have hroom : (new 256 500).pending.keys.length < (new 256 500).maxPending := by decide
  ⟨hfresh, hroom,
    fragment_numbers_unchecked (new 256 500) 0 ⟨Wire.ByteArr.zero 12, Wire.ByteArr.zero 4⟩ 1 hfresh hroom
      [0xA0] [0xA1] [0xA2] [0xA3]⟩

end FragmentBuffer

end Hdds.Discovery
