import Mathlib

/-! # The writer's history cache and its slab pool

`core/rt/slabpool.rs` and `reliability/history_cache.rs`: the size-class slab allocator that holds
the payloads, and the `HistoryCache` ring of entries with its byte quota, its KEEP_LAST eviction
loops and its KEEP_ALL admission checks.

* A pool's `AtomicU64` bitmap is the list of its first `slot_count` bits (`true` = reserved); the
  slot memory is left out, and with it the payload bytes an entry points to: the cache reads only
  an entry's `len`. A `SlabHandle` is the pair `(pool_id, slot_id)` its `u32` packs.
* `usize` values are naturals. The two `saturating_add`s of the KEEP_ALL check are sums: they
  saturate only past `usize::MAX` bytes or entries. `quota_bytes` is the cache's own counter, updated
  by `fetch_add` / `fetch_sub` exactly where the code does.
* The four limits are kept as the `ResourceLimits` the cache is built from. `KeepLast`'s depth is
  not read by the cache.
* Each `while` loop is a function with explicit fuel; every round removes an entry, so
  `ring.len()` (or one more) rounds always run the loop to its exit.
* `current_time_ns()` is the argument `tsNs` of `insert_keyed`.
-/

namespace Hdds.Rt
set_option autoImplicit false

/-! ## The slab pool -/

/-- `SIZE_CLASSES`: `(slot_size, slot_count)`. -/
def sizeClasses : List (ℕ × ℕ) :=
  [(16, 64), (32, 64), (64, 64), (128, 64), (256, 64), (512, 64), (1024, 64), (2048, 32),
    (4096, 32), (8192, 32), (16384, 32), (32768, 32), (65536, 32), (131072, 16)]

/-- `SlabHandle`. -/
structure SlabHandle where
  poolId : ℕ
  slotId : ℕ
deriving DecidableEq, Repr

/-- `Pool`: its slot size and its bitmap of reserved slots. -/
structure Pool where
  slotSize : ℕ
  bitmap : List Bool
deriving DecidableEq, Repr, Inhabited

namespace Pool

/-- `Pool::new`: every slot free. -/
def new (slotSize slotCount : ℕ) : Pool := ⟨slotSize, List.replicate slotCount false⟩

/-- `Pool::try_reserve`: the first free slot, marked reserved. -/
def tryReserve (p : Pool) : Option (ℕ × Pool) :=
  match p.bitmap.findIdx? (fun b => !b) with
  | none => none
  | some slot => some (slot, { p with bitmap := p.bitmap.set slot true })

/-- `Pool::release_slot`. -/
def releaseSlot (p : Pool) (slotId : ℕ) : Pool := { p with bitmap := p.bitmap.set slotId false }

/-- Releasing the slot just reserved gives the pool back. -/
theorem releaseSlot_of_tryReserve {p p' : Pool} {slot : ℕ} (h : p.tryReserve = some (slot, p')) :
    p'.releaseSlot slot = p := by
  unfold tryReserve at h
  split at h
  · contradiction
  · next found hfound =>
    obtain ⟨rfl, rfl⟩ := Prod.mk.inj (Option.some.inj h)
    obtain ⟨hlt, hfree, -⟩ := List.findIdx?_eq_some_iff_getElem.mp hfound
    have hfalse : p.bitmap[found] = false := by simpa using hfree
    have hbits : p.bitmap.set found false = p.bitmap := by
      conv => rhs; rw [← List.set_getElem_self hlt]
      rw [hfalse]
    simp only [releaseSlot, List.set_set, hbits]

end Pool

/-- `SlabPool`. -/
structure SlabPool where
  pools : List Pool
deriving DecidableEq, Repr

namespace SlabPool

/-- `SlabPool::new`: one pool per size class. -/
def new : SlabPool := ⟨sizeClasses.map (fun c => Pool.new c.1 c.2)⟩

/-- The loop of `reserve` over the pool ids from the best fit on. -/
def reserveFrom (pools : List Pool) : List ℕ → Option (SlabHandle × List Pool)
  | [] => none
  | poolId :: rest =>
    match pools[poolId]?.bind Pool.tryReserve with
    | some (slotId, p) => some (⟨poolId, slotId⟩, pools.set poolId p)
    | none => reserveFrom pools rest

/-- `SlabPool::reserve`: the smallest size class that holds `len` bytes, then the larger ones. -/
def reserve (sp : SlabPool) (len : ℕ) : Option (SlabHandle × SlabPool) :=
  match sizeClasses.findIdx? (fun c => len ≤ c.1) with
  | none => none
  | some startIdx =>
    (reserveFrom sp.pools (List.range' startIdx (sp.pools.length - startIdx))).map
      (fun r => (r.1, ⟨r.2⟩))

/-- `SlabPool::release`. -/
def release (sp : SlabPool) (h : SlabHandle) : SlabPool :=
  ⟨sp.pools.modify h.poolId (fun p => p.releaseSlot h.slotId)⟩

theorem release_of_reserveFrom {pools pools' : List Pool} {ids : List ℕ} {h : SlabHandle}
    (hres : reserveFrom pools ids = some (h, pools')) :
    pools'.modify h.poolId (fun p => p.releaseSlot h.slotId) = pools := by
  induction ids with
  | nil => simp [reserveFrom] at hres
  | cons poolId rest ih =>
    unfold reserveFrom at hres
    split at hres
    · next slot p hslot =>
      obtain ⟨rfl, rfl⟩ := Prod.mk.inj (Option.some.inj hres)
      obtain ⟨q, hq, hreserve⟩ := Option.bind_eq_some_iff.mp hslot
      have hlt : poolId < pools.length := (List.getElem?_eq_some_iff.mp hq).1
      have hget : pools[poolId] = q := (List.getElem?_eq_some_iff.mp hq).2
      rw [List.modify_eq_set, List.getElem?_set_self hlt, Option.getD_some, List.set_set,
        Pool.releaseSlot_of_tryReserve hreserve, ← hget, List.set_getElem_self]
    · exact ih hres

/-- The slab of a rejected insert goes back: reserving and releasing leaves the pool as it was. -/
theorem release_of_reserve {sp sp' : SlabPool} {len : ℕ} {h : SlabHandle}
    (hres : sp.reserve len = some (h, sp')) : sp'.release h = sp := by
  unfold reserve at hres
  split at hres
  · contradiction
  · obtain ⟨r, hr, hmap⟩ := Option.map_eq_some_iff.mp hres
    obtain ⟨rfl, rfl⟩ := Prod.mk.inj hmap
    simp only [release, release_of_reserveFrom hr]

/-- No size class holds more than 128 KiB. -/
theorem reserve_eq_none_of_lt {sp : SlabPool} {len : ℕ} (h : 131072 < len) :
    sp.reserve len = none := by
  have hclasses : ∀ c ∈ sizeClasses, c.1 ≤ 131072 := by decide
  have hnone : sizeClasses.findIdx? (fun c => decide (len ≤ c.1)) = none :=
    List.findIdx?_eq_none_iff.mpr fun c hc => by
      have := hclasses c hc
      simp only [decide_eq_false_iff_not]
      omega
  simp [reserve, hnone]

end SlabPool

end Hdds.Rt

namespace Hdds.Reliability
open Hdds.Rt
set_option autoImplicit false

/-! ## The cache -/

/-- `LENGTH_UNLIMITED`: `usize::MAX`. -/
def lengthUnlimited : ℕ := 2 ^ 64 - 1

/-- `History`. -/
inductive History
  | keepLast (depth : ℕ)
  | keepAll
deriving DecidableEq, Repr

/-- `ResourceLimits`. -/
structure ResourceLimits where
  maxSamples : ℕ
  maxInstances : ℕ
  maxSamplesPerInstance : ℕ
  maxQuotaBytes : ℕ
deriving DecidableEq, Repr

/-- `CacheEntry`. -/
structure CacheEntry where
  seq : ℕ
  slab : SlabHandle
  len : ℕ
  tsNs : ℕ
  instanceKey : ℕ
deriving DecidableEq, Repr

/-- The one `Error` variant the cache returns: `Error::WouldBlock`. -/
inductive CacheError
  | wouldBlock
deriving DecidableEq, Repr

/-- `HistoryCache`: the ring, the slab pool, the quota counter, the limits and the history kind. -/
structure HistoryCache where
  ring : List CacheEntry
  slabs : SlabPool
  quotaBytes : ℕ
  limits : ResourceLimits
  historyKind : History
deriving DecidableEq, Repr

/-- `samples_for_instance`, over a ring. -/
def samplesFor (ring : List CacheEntry) (instanceKey : ℕ) : ℕ :=
  ring.countP (fun e => e.instanceKey == instanceKey)

/-- `count_instances`: the distinct keys, collected in ring order. -/
def countInstances (ring : List CacheEntry) : ℕ :=
  (ring.foldl (fun keys e => if keys.contains e.instanceKey then keys else keys ++ [e.instanceKey])
    []).length

namespace HistoryCache

/-- `HistoryCache::new_with_history`. -/
def newWithHistory (slabs : SlabPool) (limits : ResourceLimits) (historyKind : History) :
    HistoryCache :=
  ⟨[], slabs, 0, limits, historyKind⟩

/-- `HistoryCache::new`: KEEP_LAST with depth `max_samples`, clamped to `u32`. -/
def new (slabs : SlabPool) (limits : ResourceLimits) : HistoryCache :=
  newWithHistory slabs limits (.keepLast (min limits.maxSamples (2 ^ 32 - 1)))

/-- `HistoryCache::new_with_limits`: no instance limits. -/
def newWithLimits (slabs : SlabPool) (maxSamples maxQuotaBytes : ℕ) (historyKind : History) :
    HistoryCache :=
  ⟨[], slabs, 0, ⟨maxSamples, lengthUnlimited, lengthUnlimited, maxQuotaBytes⟩, historyKind⟩

/-- `HistoryCache::new_with_durability_service_limits`. -/
def newWithDurabilityServiceLimits (slabs : SlabPool) (maxSamples maxQuotaBytes : ℕ)
    (historyKind : History) (maxInstances maxSamplesPerInstance : ℕ) : HistoryCache :=
  ⟨[], slabs, 0, ⟨maxSamples, maxInstances, maxSamplesPerInstance, maxQuotaBytes⟩, historyKind⟩

/-- `evict_oldest`: pop the front entry, release its slot, subtract its length. -/
def evictOldest (c : HistoryCache) : HistoryCache × Option ℕ :=
  match c.ring with
  | [] => (c, none)
  | e :: rest =>
    ({ c with ring := rest, slabs := c.slabs.release e.slab, quotaBytes := c.quotaBytes - e.len },
      some e.seq)

/-- `ring.remove(idx)` followed by the release of its slot and the `fetch_sub` of its length;
nothing when `idx` is out of range. -/
def removeAt (c : HistoryCache) (idx : ℕ) : HistoryCache :=
  match c.ring[idx]? with
  | none => c
  | some e =>
    { c with
      ring := c.ring.eraseIdx idx
      slabs := c.slabs.release e.slab
      quotaBytes := c.quotaBytes - e.len }

/-- `while cond { evict_oldest }` for at most `fuel` rounds, with the number of rounds run. -/
def evictWhile (cond : HistoryCache → Bool) : ℕ → HistoryCache → HistoryCache × ℕ
  | 0, c => (c, 0)
  | fuel + 1, c =>
    if cond c then
      let r := evictWhile cond fuel c.evictOldest.1
      (r.1, r.2 + 1)
    else (c, 0)

/-- `remove_acknowledged`: pop entries from the front while their sequence is at most
`acked_seq`; returns the number removed. -/
def removeAcknowledged (c : HistoryCache) (ackedSeq : ℕ) : HistoryCache × ℕ :=
  evictWhile (fun c => c.ring.head?.any (fun front => front.seq ≤ ackedSeq)) c.ring.length c

/-- `enforce_limits`: evict from the front while over `max_samples`, then while over
`max_quota_bytes` and not empty. -/
def enforceLimits (c : HistoryCache) : HistoryCache :=
  let c := (evictWhile (fun c => c.ring.length > c.limits.maxSamples) c.ring.length c).1
  (evictWhile (fun c => c.quotaBytes > c.limits.maxQuotaBytes && !c.ring.isEmpty)
    c.ring.length c).1

/-- The instance the per-instance loop evicts from: that of the first entry whose instance holds
more than `max_samples_per_instance` entries. -/
def overLimitKey (c : HistoryCache) : Option ℕ :=
  (c.ring.find? (fun e => samplesFor c.ring e.instanceKey > c.limits.maxSamplesPerInstance)).map
    (·.instanceKey)

/-- The `max_samples_per_instance` loop of `enforce_instance_limits`: remove the oldest entry of
the first over-limit instance, until there is none. -/
def evictOverInstanceLimit : ℕ → HistoryCache → HistoryCache
  | 0, c => c
  | fuel + 1, c =>
    match c.overLimitKey with
    | none => c
    | some key =>
      match c.ring.findIdx? (fun e => e.instanceKey == key) with
      | none => c
      | some pos => evictOverInstanceLimit fuel (c.removeAt pos)

/-- The inner loop of the `max_instances` pass: collect the indices of `key`'s entries, then
remove them from the highest down. -/
def removeInstance (c : HistoryCache) (key : ℕ) : HistoryCache :=
  let removedIndices := ((c.ring.zipIdx).filter (fun p => p.1.instanceKey == key)).map (·.2)
  removedIndices.reverse.foldl removeAt c

/-- The `max_instances` loop of `enforce_instance_limits`: while there are too many instances,
remove every entry of the instance of the front entry. -/
def evictOverInstances : ℕ → HistoryCache → HistoryCache
  | 0, c => c
  | fuel + 1, c =>
    if countInstances c.ring > c.limits.maxInstances then
      match c.ring.head? with
      | some oldest => evictOverInstances fuel (c.removeInstance oldest.instanceKey)
      | none => c
    else c

/-- `enforce_instance_limits`. -/
def enforceInstanceLimits (c : HistoryCache) : HistoryCache :=
  if c.limits.maxInstances = lengthUnlimited ∧ c.limits.maxSamplesPerInstance = lengthUnlimited then c
  else
    let c := if c.limits.maxSamplesPerInstance ≠ lengthUnlimited then
        evictOverInstanceLimit (c.ring.length + 1) c
      else c
    if c.limits.maxInstances ≠ lengthUnlimited then evictOverInstances (c.ring.length + 1) c else c

/-- `would_exceed_instance_limits`. -/
def wouldExceedInstanceLimits (c : HistoryCache) (instanceKey : ℕ) : Bool :=
  if c.limits.maxInstances ≠ lengthUnlimited ∧ !c.ring.any (fun e => e.instanceKey == instanceKey) ∧
      countInstances c.ring ≥ c.limits.maxInstances then true
  else c.limits.maxSamplesPerInstance ≠ lengthUnlimited ∧
    samplesFor c.ring instanceKey ≥ c.limits.maxSamplesPerInstance

/-- `insert_keyed`: reserve a slot for the payload; under KEEP_ALL reject an entry that would
break a limit, releasing the slot; otherwise append it, add its length, and under KEEP_LAST
evict down to the limits. -/
def insertKeyed (c : HistoryCache) (seq : ℕ) (payload : List UInt8) (instanceKey tsNs : ℕ) :
    HistoryCache × Except CacheError Unit :=
  let len := payload.length
  match c.slabs.reserve len with
  | none => (c, .error .wouldBlock)
  | some (handle, slabs) =>
    let entry : CacheEntry := ⟨seq, handle, len, tsNs, instanceKey⟩
    let shouldReject : Bool := match c.historyKind with
      | .keepAll =>
        c.ring.length + 1 > c.limits.maxSamples || c.quotaBytes + len > c.limits.maxQuotaBytes ||
          c.wouldExceedInstanceLimits instanceKey
      | .keepLast _ => false
    if shouldReject then ({ c with slabs := slabs.release handle }, .error .wouldBlock)
    else
      let c := { c with ring := c.ring ++ [entry], slabs := slabs, quotaBytes := c.quotaBytes + len }
      match c.historyKind with
      | .keepLast _ => (c.enforceLimits.enforceInstanceLimits, .ok ())
      | .keepAll => (c, .ok ())

/-- `insert`: the unkeyed instance 0. -/
def insert (c : HistoryCache) (seq : ℕ) (payload : List UInt8) (tsNs : ℕ) :
    HistoryCache × Except CacheError Unit :=
  c.insertKeyed seq payload 0 tsNs

/-- `clear`: release every slot and reset the quota. -/
def clear (c : HistoryCache) : HistoryCache :=
  { c with ring := [], slabs := c.ring.foldl (fun s e => s.release e.slab) c.slabs, quotaBytes := 0 }

end HistoryCache

/-! ## Counting -/

/-- The distinct instance keys of a ring. -/
def instanceKeys (ring : List CacheEntry) : Finset ℕ := (ring.map (·.instanceKey)).toFinset

/-- The sum of the lengths of the entries of a ring. -/
def quotaOf (ring : List CacheEntry) : ℕ := (ring.map (·.len)).sum

@[simp] theorem instanceKeys_append_singleton (ring : List CacheEntry) (e : CacheEntry) :
    instanceKeys (ring ++ [e]) = instanceKeys ring ∪ {e.instanceKey} := by
  ext k
  simp [instanceKeys]

theorem samplesFor_append_singleton (ring : List CacheEntry) (e : CacheEntry) (k : ℕ) :
    samplesFor (ring ++ [e]) k = samplesFor ring k + if e.instanceKey = k then 1 else 0 := by
  simp [samplesFor, List.countP_append]

@[simp] theorem quotaOf_append (ring ring' : List CacheEntry) :
    quotaOf (ring ++ ring') = quotaOf ring + quotaOf ring' := by
  simp [quotaOf]

/-- The key list `count_instances` builds has no repetition and holds the keys met so far. -/
theorem foldl_collectKeys (ring : List CacheEntry) (keys : List ℕ) (hkeys : keys.Nodup) :
    let r := ring.foldl
      (fun keys e => if keys.contains e.instanceKey then keys else keys ++ [e.instanceKey]) keys
    r.Nodup ∧ r.toFinset = keys.toFinset ∪ instanceKeys ring := by
  induction ring generalizing keys with
  | nil => simp [instanceKeys, hkeys]
  | cons e ring ih =>
    simp only [List.foldl_cons]
    by_cases hmem : e.instanceKey ∈ keys
    · obtain ⟨hnodup, hset⟩ := ih keys hkeys
      refine ⟨by simpa [hmem] using hnodup, ?_⟩
      simp only [List.contains_iff_mem, hmem, if_true] at hnodup hset ⊢
      rw [hset]
      ext k
      by_cases hk : k = e.instanceKey
      · subst hk
        simp [instanceKeys, hmem]
      · simp [instanceKeys, hk]
    · have hnodup' : (keys ++ [e.instanceKey]).Nodup :=
        List.nodup_append.mpr ⟨hkeys, List.nodup_singleton _, by
          simp only [List.mem_singleton]
          rintro a ha b rfl rfl
          exact hmem ha⟩
      obtain ⟨hnodup, hset⟩ := ih _ hnodup'
      simp only [List.contains_iff_mem, hmem, if_false] at hnodup hset ⊢
      refine ⟨hnodup, ?_⟩
      rw [hset]
      ext k
      simp [instanceKeys]

/-- `count_instances` counts the distinct instance keys. -/
theorem countInstances_eq_card (ring : List CacheEntry) :
    countInstances ring = (instanceKeys ring).card := by
  obtain ⟨hnodup, hset⟩ := foldl_collectKeys ring [] List.nodup_nil
  rw [countInstances, ← List.toFinset_card_of_nodup hnodup, hset]
  simp

theorem card_instanceKeys_le_length (ring : List CacheEntry) :
    (instanceKeys ring).card ≤ ring.length := by
  simpa [instanceKeys] using List.toFinset_card_le (ring.map (·.instanceKey))

theorem samplesFor_le_length (ring : List CacheEntry) (k : ℕ) : samplesFor ring k ≤ ring.length :=
  List.countP_le_length

/-- Removing the entries at the indices `p` selects, from the highest index down, leaves exactly
the entries `p` rejects: each removal leaves the lower indices in place. -/
theorem foldl_eraseIdx_reverse {α : Type*} (p : α → Bool) (pre l : List α) :
    ((((l.zipIdx pre.length).filter (fun q => p q.1)).map (·.2)).reverse.foldl List.eraseIdx
      (pre ++ l)) = pre ++ l.filter (fun a => !p a) := by
  induction l generalizing pre with
  | nil => simp
  | cons a l ih =>
    have hshift := ih (pre ++ [a])
    simp only [List.length_append, List.length_singleton, List.append_assoc,
      List.singleton_append] at hshift
    rw [List.zipIdx_cons, List.filter_cons]
    by_cases ha : p a
    · simp only [ha, if_true, List.map_cons, List.reverse_cons, List.foldl_append, hshift,
        List.foldl_cons, List.foldl_nil, List.filter_cons, Bool.not_true, Bool.false_eq_true,
        if_false]
      rw [List.eraseIdx_append_of_length_le (le_refl _), Nat.sub_self]
      rfl
    · simp only [ha, Bool.false_eq_true, if_false, hshift, List.filter_cons, Bool.not_false,
        if_true]

/-! ## Removals

Every eviction path removes entries one `remove` or `pop_front` at a time and subtracts each
removed length. `Shrinks c c'` says what such a path does: the ring of `c'` is a sublist of that of
`c`, the quota stays the exact sum of the lengths, and the limits are untouched. -/

namespace HistoryCache

/-- `quota_bytes` is the sum of the lengths of the cached entries. -/
def QuotaExact (c : HistoryCache) : Prop := c.quotaBytes = quotaOf c.ring

/-- `c'` is `c` with some entries removed and their lengths subtracted. -/
structure Shrinks (c c' : HistoryCache) : Prop where
  sublist : c'.ring.Sublist c.ring
  exact : c.QuotaExact → c'.QuotaExact
  limits : c'.limits = c.limits
  historyKind : c'.historyKind = c.historyKind

theorem Shrinks.refl (c : HistoryCache) : Shrinks c c := ⟨List.Sublist.refl _, id, rfl, rfl⟩

theorem Shrinks.trans {c c' c'' : HistoryCache} (h : Shrinks c c') (h' : Shrinks c' c'') :
    Shrinks c c'' :=
  ⟨h'.sublist.trans h.sublist, h'.exact ∘ h.exact, h'.limits.trans h.limits,
    h'.historyKind.trans h.historyKind⟩

theorem ring_removeAt (c : HistoryCache) (idx : ℕ) : (c.removeAt idx).ring = c.ring.eraseIdx idx := by
  unfold removeAt
  split
  · next hnone => exact (List.eraseIdx_of_length_le (List.getElem?_eq_none_iff.mp hnone)).symm
  · rfl

theorem shrinks_removeAt (c : HistoryCache) (idx : ℕ) : Shrinks c (c.removeAt idx) := by
  unfold removeAt
  split
  · exact Shrinks.refl c
  · next e he =>
    obtain ⟨hlt, rfl⟩ := List.getElem?_eq_some_iff.mp he
    refine ⟨List.eraseIdx_sublist _ _, fun hexact => ?_, rfl, rfl⟩
    -- the removed entry and the rest are a permutation of the ring
    have hsum : quotaOf c.ring = c.ring[idx].len + quotaOf (c.ring.eraseIdx idx) := by
      rw [quotaOf, ← ((List.getElem_cons_eraseIdx_perm hlt).map (·.len)).sum_eq]
      simp [quotaOf]
    show c.quotaBytes - c.ring[idx].len = quotaOf (c.ring.eraseIdx idx)
    rw [hexact]
    omega

theorem evictOldest_fst (c : HistoryCache) : c.evictOldest.1 = c.removeAt 0 := by
  obtain ⟨ring, slabs, quotaBytes, limits, historyKind⟩ := c
  cases ring <;> rfl

theorem length_evictOldest {c : HistoryCache} (h : c.ring ≠ []) :
    c.evictOldest.1.ring.length = c.ring.length - 1 := by
  rw [evictOldest_fst, ring_removeAt,
    List.length_eraseIdx_of_lt (List.length_pos_iff.mpr h)]

theorem shrinks_evictWhile (cond : HistoryCache → Bool) (fuel : ℕ) (c : HistoryCache) :
    Shrinks c (evictWhile cond fuel c).1 := by
  induction fuel generalizing c with
  | zero => exact Shrinks.refl c
  | succ fuel ih =>
    unfold evictWhile
    split
    · dsimp only
      rw [evictOldest_fst]
      exact (shrinks_removeAt c 0).trans (ih _)
    · exact Shrinks.refl c

/-- With as many rounds as entries, a loop whose condition needs an entry runs to its exit. -/
theorem evictWhile_exit (cond : HistoryCache → Bool) (hcond : ∀ c, cond c = true → c.ring ≠ [])
    (fuel : ℕ) (c : HistoryCache) (hfuel : c.ring.length ≤ fuel) :
    cond (evictWhile cond fuel c).1 = false := by
  induction fuel generalizing c with
  | zero =>
    have hnil : c.ring = [] := List.eq_nil_of_length_eq_zero (by omega)
    simpa [evictWhile] using fun hc => hcond c hc hnil
  | succ fuel ih =>
    unfold evictWhile
    by_cases hc : cond c = true
    · rw [if_pos hc]
      refine ih _ ?_
      rw [length_evictOldest (hcond c hc)]
      omega
    · rw [if_neg hc]
      simpa using hc

/-! ### `enforce_limits` -/

theorem shrinks_enforceLimits (c : HistoryCache) : Shrinks c c.enforceLimits :=
  (shrinks_evictWhile _ _ c).trans (shrinks_evictWhile _ _ _)

/-- After `enforce_limits` the ring holds at most `max_samples` entries and, the quota being
exact, at most `max_quota_bytes` bytes. -/
theorem enforceLimits_within {c : HistoryCache} (hexact : c.QuotaExact) :
    c.enforceLimits.ring.length ≤ c.limits.maxSamples ∧
      c.enforceLimits.quotaBytes ≤ c.limits.maxQuotaBytes := by
  set c₁ := (evictWhile (fun c => c.ring.length > c.limits.maxSamples) c.ring.length c).1 with hc₁
  have h₁ := shrinks_evictWhile (fun c => c.ring.length > c.limits.maxSamples) c.ring.length c
  have hsamples := evictWhile_exit (fun c => c.ring.length > c.limits.maxSamples)
    (fun c hc => List.ne_nil_of_length_pos (by simp at hc; omega)) c.ring.length c le_rfl
  have h₂ := shrinks_evictWhile
    (fun c => c.quotaBytes > c.limits.maxQuotaBytes && !c.ring.isEmpty) c₁.ring.length c₁
  have hquota := evictWhile_exit
    (fun c => c.quotaBytes > c.limits.maxQuotaBytes && !c.ring.isEmpty)
    (fun c hc => by simp at hc; exact hc.2) c₁.ring.length c₁ le_rfl
  rw [← hc₁] at h₁ hsamples
  simp only [decide_eq_false_iff_not, not_lt] at hsamples
  simp only [Bool.and_eq_false_iff, decide_eq_false_iff_not, not_lt, Bool.not_eq_false',
    List.isEmpty_iff] at hquota
  have hexact₂ := h₂.exact (h₁.exact hexact)
  refine ⟨?_, ?_⟩
  · calc c.enforceLimits.ring.length ≤ c₁.ring.length := h₂.sublist.length_le
      _ ≤ c₁.limits.maxSamples := hsamples
      _ = c.limits.maxSamples := by rw [h₁.limits]
  · show (evictWhile _ c₁.ring.length c₁).1.quotaBytes ≤ c.limits.maxQuotaBytes
    rw [← h₁.limits, ← h₂.limits]
    rcases hquota with hle | hnil
    · exact hle
    · rw [hexact₂, hnil]
      simp [quotaOf]

/-! ### The `max_samples_per_instance` loop -/

theorem samplesFor_le_of_overLimitKey {c : HistoryCache} (h : c.overLimitKey = none) (k : ℕ) :
    samplesFor c.ring k ≤ c.limits.maxSamplesPerInstance := by
  have hfind := Option.map_eq_none_iff.mp h
  by_cases hk : ∃ e ∈ c.ring, e.instanceKey = k
  · obtain ⟨e, he, rfl⟩ := hk
    have := List.find?_eq_none.mp hfind e he
    simpa using this
  · have hzero : samplesFor c.ring k = 0 :=
      List.countP_eq_zero.mpr fun e he hek => hk ⟨e, he, by simpa using hek⟩
    omega

theorem shrinks_evictOverInstanceLimit (fuel : ℕ) (c : HistoryCache) :
    Shrinks c (evictOverInstanceLimit fuel c) := by
  induction fuel generalizing c with
  | zero => exact Shrinks.refl c
  | succ fuel ih =>
    unfold evictOverInstanceLimit
    split
    · exact Shrinks.refl c
    · split
      · exact Shrinks.refl c
      · exact (shrinks_removeAt c _).trans (ih _)

/-- With more rounds than entries, the loop leaves no instance over its limit. -/
theorem evictOverInstanceLimit_exit (fuel : ℕ) (c : HistoryCache) (hfuel : c.ring.length < fuel)
    (k : ℕ) : samplesFor (evictOverInstanceLimit fuel c).ring k ≤ c.limits.maxSamplesPerInstance := by
  induction fuel generalizing c with
  | zero => omega
  | succ fuel ih =>
    unfold evictOverInstanceLimit
    split
    · next hnone => exact samplesFor_le_of_overLimitKey hnone k
    · next key hkey =>
      -- the over-limit key is that of an entry, so its first position exists
      obtain ⟨e, hfind, rfl⟩ := Option.map_eq_some_iff.mp hkey
      have he : e ∈ c.ring := List.mem_of_find?_eq_some hfind
      split
      · next hnone =>
        have := List.findIdx?_eq_none_iff.mp hnone e he
        simp at this
      · next pos hpos =>
        obtain ⟨hlt, -, -⟩ := List.findIdx?_eq_some_iff_getElem.mp hpos
        have hshorter : (c.removeAt pos).ring.length < fuel := by
          rw [ring_removeAt, List.length_eraseIdx_of_lt hlt]
          omega
        rw [← (shrinks_removeAt c pos).limits]
        exact ih _ hshorter

/-! ### The `max_instances` loop -/

theorem ring_foldl_removeAt (idxs : List ℕ) (c : HistoryCache) :
    (idxs.foldl removeAt c).ring = idxs.foldl List.eraseIdx c.ring := by
  induction idxs generalizing c with
  | nil => rfl
  | cons idx idxs ih => simp only [List.foldl_cons, ih, ring_removeAt]

theorem shrinks_foldl_removeAt (idxs : List ℕ) (c : HistoryCache) :
    Shrinks c (idxs.foldl removeAt c) := by
  induction idxs generalizing c with
  | nil => exact Shrinks.refl c
  | cons idx idxs ih => exact (shrinks_removeAt c idx).trans (ih _)

/-- Removing the collected indices from the highest down removes exactly the instance. -/
theorem ring_removeInstance (c : HistoryCache) (key : ℕ) :
    (c.removeInstance key).ring = c.ring.filter (fun e => !(e.instanceKey == key)) := by
  rw [removeInstance, ring_foldl_removeAt]
  simpa using foldl_eraseIdx_reverse (fun e : CacheEntry => e.instanceKey == key) [] c.ring

theorem shrinks_removeInstance (c : HistoryCache) (key : ℕ) : Shrinks c (c.removeInstance key) :=
  shrinks_foldl_removeAt _ c

theorem shrinks_evictOverInstances (fuel : ℕ) (c : HistoryCache) :
    Shrinks c (evictOverInstances fuel c) := by
  induction fuel generalizing c with
  | zero => exact Shrinks.refl c
  | succ fuel ih =>
    unfold evictOverInstances
    split
    · split
      · exact (shrinks_removeInstance c _).trans (ih _)
      · exact Shrinks.refl c
    · exact Shrinks.refl c

/-- With more rounds than entries, the loop leaves at most `max_instances` instances. -/
theorem evictOverInstances_exit (fuel : ℕ) (c : HistoryCache) (hfuel : c.ring.length < fuel) :
    (instanceKeys (evictOverInstances fuel c).ring).card ≤ c.limits.maxInstances := by
  induction fuel generalizing c with
  | zero => omega
  | succ fuel ih =>
    unfold evictOverInstances
    split
    · next hover =>
      rw [countInstances_eq_card] at hover
      split
      · next oldest hhead =>
        -- the front entry's instance goes, and the front entry with it
        have hmem : oldest ∈ c.ring := List.mem_of_mem_head? hhead
        have hshorter : (c.removeInstance oldest.instanceKey).ring.length < fuel := by
          rw [ring_removeInstance]
          have : (c.ring.filter (fun e => !(e.instanceKey == oldest.instanceKey))).length <
              c.ring.length := List.length_filter_lt_length_iff_exists.mpr ⟨oldest, hmem, by simp⟩
          omega
        rw [← (shrinks_removeInstance c oldest.instanceKey).limits]
        exact ih _ hshorter
      · next hhead =>
        rw [List.head?_eq_none_iff.mp hhead] at hover
        simp [instanceKeys] at hover
    · next hle =>
      rw [countInstances_eq_card] at hle
      omega

/-! ### `enforce_instance_limits` -/

theorem shrinks_enforceInstanceLimits (c : HistoryCache) : Shrinks c c.enforceInstanceLimits := by
  unfold enforceInstanceLimits
  split
  · exact Shrinks.refl c
  · dsimp only
    generalize hc₁ : (if c.limits.maxSamplesPerInstance ≠ lengthUnlimited then
        evictOverInstanceLimit (c.ring.length + 1) c else c) = c₁
    have h₁ : Shrinks c c₁ := by
      rw [← hc₁]
      split
      · exact shrinks_evictOverInstanceLimit _ c
      · exact Shrinks.refl c
    split
    · exact h₁.trans (shrinks_evictOverInstances _ _)
    · exact h₁

/-- After `enforce_instance_limits` no instance holds more than `max_samples_per_instance` entries
and there are at most `max_instances` instances. A limit equal to `LENGTH_UNLIMITED` is not
enforced, and holds because the ring has at most `usize::MAX` entries. -/
theorem enforceInstanceLimits_within (c : HistoryCache) (hfit : c.ring.length ≤ lengthUnlimited) :
    (∀ k, samplesFor c.enforceInstanceLimits.ring k ≤ c.limits.maxSamplesPerInstance) ∧
      (instanceKeys c.enforceInstanceLimits.ring).card ≤ c.limits.maxInstances := by
  unfold enforceInstanceLimits
  split
  · next hunlimited =>
    obtain ⟨hinst, hper⟩ := hunlimited
    exact ⟨fun k => by have := samplesFor_le_length c.ring k; omega,
      by have := card_instanceKeys_le_length c.ring; omega⟩
  · dsimp only
    generalize hc₁ : (if c.limits.maxSamplesPerInstance ≠ lengthUnlimited then
        evictOverInstanceLimit (c.ring.length + 1) c else c) = c₁
    have h₁ : Shrinks c c₁ := by
      rw [← hc₁]
      split
      · exact shrinks_evictOverInstanceLimit _ c
      · exact Shrinks.refl c
    have hper₁ : ∀ k, samplesFor c₁.ring k ≤ c.limits.maxSamplesPerInstance := by
      intro k
      rw [← hc₁]
      split
      · exact evictOverInstanceLimit_exit _ c (by omega) k
      · next hunl =>
        have := samplesFor_le_length c.ring k
        have := not_not.mp hunl
        omega
    rw [h₁.limits]
    split
    · have h₂ := shrinks_evictOverInstances (c₁.ring.length + 1) c₁
      refine ⟨fun k => le_trans (h₂.sublist.countP_le) (hper₁ k), ?_⟩
      rw [← h₁.limits]
      exact evictOverInstances_exit _ c₁ (by omega)
    · next hunl =>
      have := not_not.mp hunl
      refine ⟨hper₁, ?_⟩
      have := card_instanceKeys_le_length c₁.ring
      have := h₁.sublist.length_le
      omega

/-! ## Limits -/

/-- The four resource limits hold. -/
structure WithinLimits (c : HistoryCache) : Prop where
  samples : c.ring.length ≤ c.limits.maxSamples
  quota : c.quotaBytes ≤ c.limits.maxQuotaBytes
  perInstance : ∀ k, samplesFor c.ring k ≤ c.limits.maxSamplesPerInstance
  instances : (instanceKeys c.ring).card ≤ c.limits.maxInstances

/-- Appending an entry of `len` bytes to instance `key` would break one of the limits. -/
def WouldExceed (c : HistoryCache) (len key : ℕ) : Prop :=
  c.ring.length + 1 > c.limits.maxSamples ∨ quotaOf c.ring + len > c.limits.maxQuotaBytes ∨
    (instanceKeys c.ring ∪ {key}).card > c.limits.maxInstances ∨
    samplesFor c.ring key + 1 > c.limits.maxSamplesPerInstance

theorem WithinLimits.of_shrinks {c c' : HistoryCache} (h : Shrinks c c') (hw : c.WithinLimits)
    (hexact : c.QuotaExact) : c'.WithinLimits := by
  obtain ⟨hsamples, hquota, hper, hinst⟩ := hw
  have hsum : quotaOf c'.ring ≤ quotaOf c.ring :=
    (h.sublist.map _).sum_le_sum fun _ _ => Nat.zero_le _
  have hkeys : instanceKeys c'.ring ⊆ instanceKeys c.ring := fun k => by
    simp only [instanceKeys, List.mem_toFinset, List.mem_map]
    rintro ⟨e, he, rfl⟩
    exact ⟨e, h.sublist.subset he, rfl⟩
  rw [← h.limits] at hsamples hquota hper hinst
  rw [hexact] at hquota
  refine ⟨le_trans h.sublist.length_le hsamples, ?_, fun k => le_trans h.sublist.countP_le (hper k),
    le_trans (Finset.card_le_card hkeys) hinst⟩
  rw [h.exact hexact]
  omega

/-! ## `insert_keyed`, one lemma per outcome -/

section Insert
variable {c : HistoryCache} {seq key tsNs : ℕ} {payload : List UInt8}

theorem insertKeyed_of_reserve_none (hres : c.slabs.reserve payload.length = none) :
    c.insertKeyed seq payload key tsNs = (c, .error .wouldBlock) := by
  simp only [insertKeyed, hres]

theorem insertKeyed_keepLast {handle : SlabHandle} {slabs : SlabPool} {depth : ℕ}
    (hres : c.slabs.reserve payload.length = some (handle, slabs))
    (hkind : c.historyKind = .keepLast depth) :
    c.insertKeyed seq payload key tsNs =
      (({ c with
          ring := c.ring ++ [⟨seq, handle, payload.length, tsNs, key⟩]
          slabs := slabs
          quotaBytes := c.quotaBytes + payload.length } : HistoryCache).enforceLimits
        |>.enforceInstanceLimits, .ok ()) := by
  simp only [insertKeyed, hres, hkind, Bool.false_eq_true, if_false]

/-- The KEEP_ALL admission test of `insert_keyed`. -/
def keepAllRejects (c : HistoryCache) (len key : ℕ) : Bool :=
  c.ring.length + 1 > c.limits.maxSamples || c.quotaBytes + len > c.limits.maxQuotaBytes ||
    c.wouldExceedInstanceLimits key

theorem insertKeyed_keepAll {handle : SlabHandle} {slabs : SlabPool}
    (hres : c.slabs.reserve payload.length = some (handle, slabs)) (hkind : c.historyKind = .keepAll) :
    c.insertKeyed seq payload key tsNs =
      if keepAllRejects c payload.length key then (c, .error .wouldBlock)
      else ({ c with
          ring := c.ring ++ [⟨seq, handle, payload.length, tsNs, key⟩]
          slabs := slabs
          quotaBytes := c.quotaBytes + payload.length }, .ok ()) := by
  -- a rejected entry's slot is released, which gives the pool back
  have hback := SlabPool.release_of_reserve hres
  obtain ⟨ring, pool, quotaBytes, limits, historyKind⟩ := c
  dsimp only at hkind hres hback ⊢
  subst hkind
  simp only [insertKeyed, hres, keepAllRejects]
  split <;> simp_all

/-- What KEEP_ALL rejects is what would break a limit, for a cache within its limits: an instance
limit equal to `LENGTH_UNLIMITED` is not tested, and cannot be broken once `max_samples` holds. -/
theorem keepAllRejects_iff (hexact : c.QuotaExact) (hw : c.WithinLimits)
    (hfit : c.limits.maxSamples ≤ lengthUnlimited) (len : ℕ) :
    keepAllRejects c len key = true ↔ c.WouldExceed len key := by
  unfold QuotaExact at hexact
  have hcard := card_instanceKeys_le_length c.ring
  have hsamples := samplesFor_le_length c.ring key
  have hnew : (!c.ring.any (fun e => e.instanceKey == key)) = true ↔ key ∉ instanceKeys c.ring := by
    simp [instanceKeys]
  have hinsert : key ∉ instanceKeys c.ring →
      (instanceKeys c.ring ∪ {key}).card = (instanceKeys c.ring).card + 1 := fun hkey => by
    rw [Finset.card_union_of_disjoint (Finset.disjoint_singleton_right.mpr hkey),
      Finset.card_singleton]
  simp only [keepAllRejects, wouldExceedInstanceLimits, WouldExceed, countInstances_eq_card,
    Bool.or_eq_true, decide_eq_true_eq, hexact]
  constructor
  · rintro ((hlen | hquota) | hinst)
    · exact .inl hlen
    · exact .inr (.inl hquota)
    · split at hinst
      · next hcond =>
        obtain ⟨-, hkey, hge⟩ := hcond
        exact .inr (.inr (.inl (by rw [hinsert (hnew.mp hkey)]; omega)))
      · simp only [decide_eq_true_eq] at hinst
        exact .inr (.inr (.inr (by omega)))
  · rintro (hlen | hquota | hinst | hper)
    · exact .inl (.inl hlen)
    · exact .inl (.inr hquota)
    · by_cases hroom : c.ring.length + 1 > c.limits.maxSamples
      · exact .inl (.inl hroom)
      refine .inr ?_
      -- a key already present adds no instance, so `key` is new and the limit is finite
      have hkey : key ∉ instanceKeys c.ring := fun hmem => by
        rw [Finset.union_eq_left.mpr (Finset.singleton_subset_iff.mpr hmem)] at hinst
        exact absurd hw.instances (by omega)
      rw [hinsert hkey] at hinst
      have hfinite : c.limits.maxInstances ≠ lengthUnlimited := by omega
      rw [if_pos ⟨hfinite, hnew.mpr hkey, by omega⟩]
    · by_cases hroom : c.ring.length + 1 > c.limits.maxSamples
      · exact .inl (.inl hroom)
      refine .inr ?_
      have hfinite : c.limits.maxSamplesPerInstance ≠ lengthUnlimited := by omega
      split
      · rfl
      · simp only [decide_eq_true_eq]
        exact ⟨hfinite, by omega⟩

end Insert

/-! ## Runs -/

/-- What every cache reached from an empty one satisfies: the quota is exact, and a KEEP_ALL cache
is within its limits. -/
structure Consistent (c : HistoryCache) : Prop where
  exact : c.QuotaExact
  keepAll : c.historyKind = .keepAll → c.WithinLimits

/-- A step keeps the cache consistent and its configuration unchanged. -/
structure Steps (c c' : HistoryCache) : Prop where
  consistent : c'.Consistent
  limits : c'.limits = c.limits
  historyKind : c'.historyKind = c.historyKind

theorem Consistent.shrinks {c c' : HistoryCache} (h : c.Consistent) (hs : Shrinks c c') :
    Steps c c' :=
  ⟨⟨hs.exact h.exact, fun hkind => (h.keepAll (hs.historyKind ▸ hkind)).of_shrinks hs h.exact⟩,
    hs.limits, hs.historyKind⟩

section Append
variable {c : HistoryCache} {seq key tsNs : ℕ} {payload : List UInt8} {handle : SlabHandle}
  {slabs : SlabPool}

theorem quotaExact_append (hexact : c.QuotaExact) :
    QuotaExact { c with
      ring := c.ring ++ [⟨seq, handle, payload.length, tsNs, key⟩]
      slabs := slabs
      quotaBytes := c.quotaBytes + payload.length } := by
  unfold QuotaExact at hexact ⊢
  rw [quotaOf_append, hexact]
  simp [quotaOf]

/-- An entry that breaks no limit keeps a cache within its limits. -/
theorem withinLimits_append (hexact : c.QuotaExact) (hw : c.WithinLimits)
    (hroom : ¬c.WouldExceed payload.length key) :
    WithinLimits { c with
      ring := c.ring ++ [⟨seq, handle, payload.length, tsNs, key⟩]
      slabs := slabs
      quotaBytes := c.quotaBytes + payload.length } := by
  simp only [WouldExceed, not_or, not_lt] at hroom
  obtain ⟨hsamples, hquota, hinst, hper⟩ := hroom
  refine ⟨by simpa using hsamples, by dsimp only; rw [hexact]; exact hquota, fun k => ?_,
    by simpa using hinst⟩
  rw [samplesFor_append_singleton]
  by_cases hk : key = k
  · subst hk
    simpa using hper
  · simpa [hk] using hw.perInstance k

end Append

section Ops
variable {c : HistoryCache} {seq key tsNs : ℕ} {payload : List UInt8}

/-- Under KEEP_LAST, a successful insert leaves the cache within its limits. -/
theorem withinLimits_insertKeyed_keepLast (hexact : c.QuotaExact) {depth : ℕ}
    (hkind : c.historyKind = .keepLast depth) (hfit : c.limits.maxSamples ≤ lengthUnlimited)
    (hok : (c.insertKeyed seq payload key tsNs).2 = .ok ()) :
    (c.insertKeyed seq payload key tsNs).1.WithinLimits := by
  cases hres : c.slabs.reserve payload.length with
  | none =>
    rw [insertKeyed_of_reserve_none hres] at hok
    cases hok
  | some r =>
    obtain ⟨handle, slabs⟩ := r
    rw [insertKeyed_keepLast hres hkind]
    dsimp only
    -- the entry is appended, then `enforce_limits` and `enforce_instance_limits` run
    generalize hc₁ : ({ c with
        ring := c.ring ++ [⟨seq, handle, payload.length, tsNs, key⟩]
        slabs := slabs
        quotaBytes := c.quotaBytes + payload.length } : HistoryCache) = c₁
    have hexact₁ : c₁.QuotaExact := hc₁ ▸ quotaExact_append hexact
    have hlimits₁ : c₁.limits = c.limits := by rw [← hc₁]
    obtain ⟨hsamples, hquota⟩ := enforceLimits_within hexact₁
    have h₂ := shrinks_enforceLimits c₁
    have h₃ := shrinks_enforceInstanceLimits c₁.enforceLimits
    obtain ⟨hper, hinst⟩ := enforceInstanceLimits_within c₁.enforceLimits
      (by rw [hlimits₁] at hsamples; omega)
    rw [h₂.limits] at hper hinst
    refine ⟨?_, ?_, ?_, ?_⟩ <;> rw [h₃.limits, h₂.limits]
    · exact le_trans h₃.sublist.length_le hsamples
    · have hsum : quotaOf c₁.enforceLimits.enforceInstanceLimits.ring ≤
          quotaOf c₁.enforceLimits.ring :=
        (h₃.sublist.map _).sum_le_sum fun _ _ => Nat.zero_le _
      have hexact₂ : c₁.enforceLimits.QuotaExact := h₂.exact hexact₁
      have hexact₃ := h₃.exact hexact₂
      unfold QuotaExact at hexact₂ hexact₃
      rw [hexact₃]
      rw [hexact₂] at hquota
      omega
    · exact hper
    · exact hinst

theorem steps_insertKeyed (h : c.Consistent) (hfit : c.limits.maxSamples ≤ lengthUnlimited) :
    Steps c (c.insertKeyed seq payload key tsNs).1 := by
  cases hres : c.slabs.reserve payload.length with
  | none =>
    rw [insertKeyed_of_reserve_none hres]
    exact ⟨h, rfl, rfl⟩
  | some r =>
    obtain ⟨handle, slabs⟩ := r
    cases hkind : c.historyKind with
    | keepLast depth =>
      rw [insertKeyed_keepLast hres hkind]
      dsimp only
      generalize hc₁ : ({ c with
          ring := c.ring ++ [⟨seq, handle, payload.length, tsNs, key⟩]
          slabs := slabs
          quotaBytes := c.quotaBytes + payload.length } : HistoryCache) = c₁
      have hexact₁ : c₁.QuotaExact := hc₁ ▸ quotaExact_append h.exact
      have hs := (shrinks_enforceLimits c₁).trans (shrinks_enforceInstanceLimits _)
      have hkind₁ : c₁.historyKind = .keepLast depth := by rw [← hc₁, hkind]
      -- a KEEP_LAST cache owes only the exact quota
      refine ⟨⟨hs.exact hexact₁, fun hall => ?_⟩, by rw [hs.limits, ← hc₁], by rw [hs.historyKind, ← hc₁]⟩
      rw [hs.historyKind, hkind₁] at hall
      cases hall
    | keepAll =>
      rw [insertKeyed_keepAll hres hkind]
      split
      · exact ⟨h, rfl, rfl⟩
      · next hkeep =>
        have hw := h.keepAll hkind
        have hroom : ¬c.WouldExceed payload.length key := fun hex =>
          hkeep ((keepAllRejects_iff h.exact hw hfit _).mpr hex)
        exact ⟨⟨quotaExact_append h.exact, fun _ => withinLimits_append h.exact hw hroom⟩,
          rfl, hkind ▸ rfl⟩

theorem steps_clear : Steps c c.clear := by
  have hempty : QuotaExact c.clear := by simp [QuotaExact, clear, quotaOf]
  refine ⟨⟨hempty, fun _ => ⟨by simp [clear], by simp [clear], fun k => ?_, by simp [clear, instanceKeys]⟩⟩,
    rfl, rfl⟩
  simp [clear, samplesFor]

end Ops

end HistoryCache

/-- The cache's operations, applied one after another. -/
inductive CacheOp
  | insertKeyed (seq : ℕ) (payload : List UInt8) (instanceKey tsNs : ℕ)
  | insert (seq : ℕ) (payload : List UInt8) (tsNs : ℕ)
  | removeAcknowledged (ackedSeq : ℕ)
  | evictOldest
  | clear

/-- Apply one operation, dropping what it returns. -/
def CacheOp.apply (c : HistoryCache) : CacheOp → HistoryCache
  | .insertKeyed seq payload instanceKey tsNs => (c.insertKeyed seq payload instanceKey tsNs).1
  | .insert seq payload tsNs => (c.insert seq payload tsNs).1
  | .removeAcknowledged ackedSeq => (c.removeAcknowledged ackedSeq).1
  | .evictOldest => c.evictOldest.1
  | .clear => c.clear

/-- The cache after a run of operations. -/
def runCache (c : HistoryCache) (ops : List CacheOp) : HistoryCache := ops.foldl CacheOp.apply c

namespace HistoryCache

theorem steps_apply {c : HistoryCache} (h : c.Consistent)
    (hfit : c.limits.maxSamples ≤ lengthUnlimited) (op : CacheOp) : Steps c (op.apply c) := by
  cases op with
  | insertKeyed seq payload instanceKey tsNs => exact steps_insertKeyed h hfit
  | insert seq payload tsNs => exact steps_insertKeyed h hfit
  | removeAcknowledged ackedSeq => exact h.shrinks (shrinks_evictWhile _ _ c)
  | evictOldest =>
    rw [CacheOp.apply, evictOldest_fst]
    exact h.shrinks (shrinks_removeAt c 0)
  | clear => exact steps_clear

/-- The run lemma: every run keeps the cache consistent and its configuration unchanged. -/
theorem steps_runCache {c : HistoryCache} (h : c.Consistent)
    (hfit : c.limits.maxSamples ≤ lengthUnlimited) (ops : List CacheOp) : Steps c (runCache c ops) := by
  induction ops generalizing c with
  | nil => exact ⟨h, rfl, rfl⟩
  | cons op ops ih =>
    have hstep := steps_apply h hfit op
    have hrest := ih hstep.consistent (by rw [hstep.limits]; exact hfit)
    exact ⟨hrest.consistent, hrest.limits.trans hstep.limits,
      hrest.historyKind.trans hstep.historyKind⟩

theorem consistent_newWithHistory (slabs : SlabPool) (limits : ResourceLimits)
    (historyKind : History) : (newWithHistory slabs limits historyKind).Consistent :=
  ⟨rfl, fun _ => ⟨Nat.zero_le _, Nat.zero_le _, fun _ => Nat.zero_le _, Nat.zero_le _⟩⟩

end HistoryCache

open HistoryCache in
/-- Over every run of operations on a cache built by `new_with_history` (every constructor is one,
with some limits), `quota_bytes` is the sum of the cached lengths. Under KEEP_LAST, a successful
insert leaves the cache within its four limits. Under KEEP_ALL, an insert that would break a limit
returns `WouldBlock` and leaves the cache as it was; any other insert appends its entry at the
back if the slab pool has a slot for the payload, and otherwise returns `WouldBlock` and leaves
the cache as it was. -/
theorem cache_runs_keep_quota_and_limits (slabs : SlabPool) (limits : ResourceLimits)
    (historyKind : History) (hfit : limits.maxSamples ≤ lengthUnlimited) (ops : List CacheOp) :
    let c := runCache (newWithHistory slabs limits historyKind) ops
    c.quotaBytes = quotaOf c.ring ∧
      (∀ depth, historyKind = .keepLast depth → ∀ seq payload key tsNs,
        (c.insertKeyed seq payload key tsNs).2 = .ok () →
          (c.insertKeyed seq payload key tsNs).1.WithinLimits) ∧
      (historyKind = .keepAll → ∀ seq payload key tsNs,
        (c.WouldExceed payload.length key →
          c.insertKeyed seq payload key tsNs = (c, .error .wouldBlock)) ∧
        (¬c.WouldExceed payload.length key → ∀ handle slabs',
          c.slabs.reserve payload.length = some (handle, slabs') →
          c.insertKeyed seq payload key tsNs = ({ c with
            ring := c.ring ++ [⟨seq, handle, payload.length, tsNs, key⟩]
            slabs := slabs'
            quotaBytes := c.quotaBytes + payload.length }, .ok ())) ∧
        (c.slabs.reserve payload.length = none →
          c.insertKeyed seq payload key tsNs = (c, .error .wouldBlock))) := by
  intro c
  have hrun := steps_runCache (consistent_newWithHistory slabs limits historyKind) hfit ops
  have hfit' : c.limits.maxSamples ≤ lengthUnlimited := by rw [hrun.limits]; exact hfit
  refine ⟨hrun.consistent.exact, fun depth hkind seq payload key tsNs hok => ?_,
    fun hkind seq payload key tsNs => ⟨fun hex => ?_, fun hroom handle slabs' hres => ?_,
      insertKeyed_of_reserve_none⟩⟩
  · exact withinLimits_insertKeyed_keepLast hrun.consistent.exact (hrun.historyKind.trans hkind)
      hfit' hok
  · have hkind' : c.historyKind = .keepAll := hrun.historyKind.trans hkind
    cases hres : c.slabs.reserve payload.length with
    | none => exact insertKeyed_of_reserve_none hres
    | some r =>
      rw [insertKeyed_keepAll hres hkind', if_pos ((keepAllRejects_iff hrun.consistent.exact
        (hrun.consistent.keepAll hkind') hfit' _).mpr hex)]
  · have hkind' : c.historyKind = .keepAll := hrun.historyKind.trans hkind
    rw [insertKeyed_keepAll hres hkind', if_neg fun hrej => hroom ((keepAllRejects_iff
      hrun.consistent.exact (hrun.consistent.keepAll hkind') hfit' _).mp hrej)]

open HistoryCache in
theorem cache_runs_keep_quota_and_limits_keepAll :
    let limits : ResourceLimits := ⟨2, 1, 2, 100⟩
    let ops := [CacheOp.insert 1 [97] 0, .insertKeyed 2 [98] 0 0, .removeAcknowledged 1]
    let c := runCache (newWithHistory SlabPool.new limits .keepAll) ops
    limits.maxSamples ≤ lengthUnlimited ∧
      (c.quotaBytes = quotaOf c.ring ∧
        (∀ depth, History.keepAll = .keepLast depth → ∀ seq payload key tsNs,
          (c.insertKeyed seq payload key tsNs).2 = .ok () →
            (c.insertKeyed seq payload key tsNs).1.WithinLimits) ∧
        (History.keepAll = .keepAll → ∀ seq payload key tsNs,
          (c.WouldExceed payload.length key →
            c.insertKeyed seq payload key tsNs = (c, .error .wouldBlock)) ∧
          (¬c.WouldExceed payload.length key → ∀ handle slabs',
            c.slabs.reserve payload.length = some (handle, slabs') →
            c.insertKeyed seq payload key tsNs = ({ c with
              ring := c.ring ++ [⟨seq, handle, payload.length, tsNs, key⟩]
              slabs := slabs'
              quotaBytes := c.quotaBytes + payload.length }, .ok ())) ∧
          (c.slabs.reserve payload.length = none →
            c.insertKeyed seq payload key tsNs = (c, .error .wouldBlock)))) := by
  intro limits ops c
  have hfit : limits.maxSamples ≤ lengthUnlimited := by decide
  exact ⟨hfit, cache_runs_keep_quota_and_limits SlabPool.new limits .keepAll hfit ops⟩

open HistoryCache in
/-- A KEEP_ALL cache with room for one more entry of a megabyte still refuses a payload of
131073 bytes: no size class of the slab pool holds it, so `insert` returns `WouldBlock` and
nothing is appended. -/
theorem keepAll_refuses_oversized_payload :
    let c := newWithLimits SlabPool.new 1 1000000 .keepAll
    ¬c.WouldExceed 131073 0 ∧
      c.insert 1 (List.replicate 131073 0) 0 = (c, .error .wouldBlock) := by
  intro c
  refine ⟨by simp [c, WouldExceed, newWithLimits, instanceKeys, samplesFor, quotaOf, lengthUnlimited], ?_⟩
  have hlong : 131072 < (List.replicate 131073 (0 : UInt8)).length := by
    rw [List.length_replicate]
    omega
  exact insertKeyed_of_reserve_none (SlabPool.reserve_eq_none_of_lt hlong)

end Hdds.Reliability
