import Hdds.Xrce.Protocol
import Hdds.Foundations.Chunking
import Hdds.Foundations.Codec

/-! # Fragmenting and reassembling XRCE datagrams

`hdds-xrce/src/protocol.rs`: `fragment_payload` cuts a serialized message into pieces of at
most `max_payload` bytes, each behind a 4-byte `FragmentHeader` (fragment number, total), and a
`ReassemblyBuffer` keeps one slot per fragment number.

* Piece `j` is the window `(data.drop (j * m)).take m`. `fragmentPayload_eq` says the loop of
  `fragment_payload` writes exactly the windows `0 .. ⌈n / m⌉ - 1`; `flatten_windows` that they
  join back to the data.
* `Holds buf S`: slot `j` holds window `j` for `j ∈ S` and nothing for the other numbers, and
  `received_count` is the size of `S`. Receiving a fragment keeps it (`Holds.receive`), and a
  run of receptions in any order and with repeats keeps it (`Holds.run`).
* `receive` is the loop body of the reassembly test: parse the fragment header, insert the rest.
-/

namespace Hdds.Xrce
open Wire
set_option autoImplicit false

/-! ## Fragment headers -/

/-- `FRAGMENT_HEADER_SIZE`. -/
def fragmentHeaderSize : ℕ := 4

/-- `FragmentHeader`. -/
structure FragmentHeader where
  fragmentNr : UInt16
  totalFragments : UInt16
deriving DecidableEq, Repr

/-- `FragmentHeader::parse`. -/
def FragmentHeader.parse (buf : List UInt8) : Except XrceError FragmentHeader :=
  if buf.length < fragmentHeaderSize then .error .BufferTooShort
  else .ok ⟨u16At buf 0, u16At buf 2⟩

/-- `FragmentHeader::to_bytes`. -/
def FragmentHeader.toBytes (h : FragmentHeader) : List UInt8 :=
  u16ToLeBytes h.fragmentNr ++ u16ToLeBytes h.totalFragments

@[simp] theorem length_FragmentHeader_toBytes (h : FragmentHeader) : h.toBytes.length = 4 := rfl

theorem FragmentHeader.parse_toBytes (h : FragmentHeader) (rest : List UInt8) :
    FragmentHeader.parse (h.toBytes ++ rest) = .ok h := by
  unfold FragmentHeader.parse
  rw [if_neg (by simp [fragmentHeaderSize])]
  simp [FragmentHeader.toBytes, u16At]

/-! ## Fragmenting -/

/-- The `while offset < data.len()` loop of `fragment_payload`; every round advances `offset`,
so the length of the data is enough fuel. -/
def fragmentLoop (data : List UInt8) (maxPayload : ℕ) (totalFragments : UInt16) :
    ℕ → ℕ → UInt16 → List (List UInt8)
  | 0, _, _ => []
  | fuel + 1, offset, fragNr =>
    if offset < data.length then
      let stop := min (offset + maxPayload) data.length
      (FragmentHeader.toBytes ⟨fragNr, totalFragments⟩ ++ field data offset (stop - offset)) ::
        fragmentLoop data maxPayload totalFragments fuel stop (fragNr + 1)
    else []

/-- `fragment_payload`. -/
def fragmentPayload (data : List UInt8) (maxPayload : ℕ) : Except XrceError (List (List UInt8)) :=
  if maxPayload = 0 then .error (.FragmentError "max_payload must be > 0")
  else if data.isEmpty then .error (.FragmentError "empty payload")
  else
    -- `data.len().div_ceil(max_payload)`
    let totalFragments := (data.length + maxPayload - 1) / maxPayload
    if totalFragments > 65535 then .error (.FragmentError "too many fragments")
    else .ok (fragmentLoop data maxPayload (UInt16.ofNat totalFragments) data.length 0 0)

/-- Window `j` of `data` cut every `m` bytes. -/
def window (data : List UInt8) (m j : ℕ) : List UInt8 := (data.drop (j * m)).take m

/-- Fragment `j` of `c` as `fragment_payload` writes it. -/
def fragmentAt (data : List UInt8) (m c j : ℕ) : List UInt8 :=
  FragmentHeader.toBytes ⟨UInt16.ofNat j, UInt16.ofNat c⟩ ++ window data m j

section Windows

variable {data : List UInt8} {m : ℕ}

/-- A window starts before the end exactly when its number is below `⌈n / m⌉`. -/
theorem lt_fragmentCount_iff (n : ℕ) (hm : 0 < m) {j : ℕ} : j < (n + m - 1) / m ↔ j * m < n := by
  rw [← Nat.add_one_le_iff, Nat.le_div_iff_mul_le hm, Nat.succ_mul]
  omega

/-- The slice `data[offset..min(offset + m, len)]` of the loop is the window. -/
theorem field_eq_window (j : ℕ) :
    field data (j * m) (min (j * m + m) data.length - j * m) = window data m j := by
  unfold field window
  rw [List.take_eq_take_iff, List.length_drop]
  omega

theorem fragmentLoop_eq (hm : 0 < m) (c : ℕ) (hc : c = (data.length + m - 1) / m) :
    ∀ (k j fuel : ℕ), c - j = k → k ≤ fuel →
      fragmentLoop data m (UInt16.ofNat c) fuel (min (j * m) data.length) (UInt16.ofNat j) =
        (List.range' j k).map (fragmentAt data m c) := by
  intro k
  -- induction on the number of windows still to write
  induction k with
  | zero =>
    intro j fuel hk _
    have hend : ¬ j * m < data.length := by
      rw [← lt_fragmentCount_iff data.length hm, ← hc]
      omega
    cases fuel with
    | zero => rfl
    | succ fuel => rw [fragmentLoop, if_neg (by omega)]; rfl
  | succ k ih =>
    intro j fuel hk hfuel
    have hj : j * m < data.length := by
      rw [← lt_fragmentCount_iff data.length hm, ← hc]
      omega
    obtain ⟨fuel, rfl⟩ : ∃ f, fuel = f + 1 := ⟨fuel - 1, by omega⟩
    have hnext : min (j * m + m) data.length = min ((j + 1) * m) data.length := by
      rw [Nat.succ_mul]
    have hnr : UInt16.ofNat j + 1 = UInt16.ofNat (j + 1) := by simp
    rw [fragmentLoop, if_pos (by omega)]
    dsimp only
    rw [min_eq_left hj.le, field_eq_window, hnext, hnr, ih (j + 1) fuel (by omega) (by omega),
      List.range'_succ, List.map_cons]
    rfl

/-- The windows of `data`, joined, are `data`. -/
theorem flatten_windows (hm : 0 < m) :
    ((List.range ((data.length + m - 1) / m)).map (window data m)).flatten = data := by
  set c := (data.length + m - 1) / m
  have hcover : data.length ≤ c * m := by
    have := (lt_fragmentCount_iff data.length hm (j := c)).not.mp (lt_irrefl c)
    omega
  have hjoin := Chunking.flatMap_consecutive data (fun j => j * m) (fun _ => m)
    (fun j => Nat.succ_mul j m) 0 c
  rw [Nat.zero_mul, List.drop_zero, Nat.zero_add, Nat.sub_zero,
    List.take_of_length_le hcover] at hjoin
  rw [List.range_eq_range', ← List.flatMap_def]
  exact hjoin

/-- For a payload and a positive `max_payload` with at most `u16::MAX` fragments,
`fragment_payload` writes fragment `j` of `⌈n / m⌉` for each `j` in order. -/
theorem fragmentPayload_eq (hm : 0 < m) (hne : data ≠ [])
    (hc : (data.length + m - 1) / m ≤ 65535) :
    fragmentPayload data m =
      .ok ((List.range ((data.length + m - 1) / m)).map
        (fragmentAt data m ((data.length + m - 1) / m))) := by
  set c := (data.length + m - 1) / m with hcdef
  -- one window per byte at most, so the data length is enough fuel
  have hfuel : c ≤ data.length := by
    have hmul : data.length ≤ data.length * m := Nat.le_mul_of_pos_right _ hm
    have := (lt_fragmentCount_iff data.length hm (j := data.length)).not.mpr (by omega)
    omega
  have hloop := fragmentLoop_eq hm c hcdef c 0 data.length (by omega) hfuel
  rw [Nat.zero_mul, Nat.zero_min] at hloop
  have hempty : data.isEmpty = false := List.isEmpty_eq_false_iff.mpr hne
  unfold fragmentPayload
  rw [if_neg (by omega), hempty, if_neg Bool.false_ne_true]
  dsimp only
  rw [← hcdef, if_neg (by omega), List.range_eq_range']
  exact congrArg Except.ok hloop

end Windows

/-! ## Reassembly -/

/-- `ReassemblyBuffer`. -/
structure ReassemblyBuffer where
  totalFragments : UInt16
  received : List (Option (List UInt8))
  receivedCount : UInt16
deriving DecidableEq, Repr

namespace ReassemblyBuffer

/-- `ReassemblyBuffer::new`. -/
def new (totalFragments : UInt16) : ReassemblyBuffer :=
  ⟨totalFragments, List.replicate totalFragments.toNat none, 0⟩

/-- `ReassemblyBuffer::insert`: the buffer after the insertion, and whether it is complete. A
fragment number seen before overwrites its slot without being counted again. -/
def insert (buf : ReassemblyBuffer) (fragmentNr : UInt16) (data : List UInt8) :
    Except XrceError (ReassemblyBuffer × Bool) :=
  if fragmentNr ≥ buf.totalFragments then
    .error (.FragmentError ("fragment_nr " ++ toString fragmentNr ++ " >= total " ++
      toString buf.totalFragments))
  else
    let idx := fragmentNr.toNat
    let receivedCount :=
      if (buf.received.getD idx none).isNone then buf.receivedCount + 1 else buf.receivedCount
    let received := buf.received.set idx (some data)
    .ok (⟨buf.totalFragments, received, receivedCount⟩, receivedCount == buf.totalFragments)

/-- `ReassemblyBuffer::assemble`. -/
def assemble (buf : ReassemblyBuffer) : Except XrceError (List UInt8) :=
  if buf.receivedCount < buf.totalFragments then
    .error (.FragmentError ("missing fragments: have " ++ toString buf.receivedCount ++ "/" ++
      toString buf.totalFragments))
  else
    (buf.received.mapM fun slot =>
      (match slot with
        | some d => .ok d
        | none => .error (.FragmentError "internal: missing slot") :
        Except XrceError (List UInt8))).map List.flatten

/-- One fragment arriving, as the loop of `test_fragment_reassembly` handles it: parse its
header, insert what follows into the slot it names, report what `insert` returned. -/
def receive (buf : ReassemblyBuffer) (frag : List UInt8) :
    ReassemblyBuffer × List (Except XrceError Bool) :=
  match FragmentHeader.parse frag with
  | .error e => (buf, [.error e])
  | .ok fh =>
    match buf.insert fh.fragmentNr (frag.drop fragmentHeaderSize) with
    | .error e => (buf, [.error e])
    | .ok (buf', complete) => (buf', [.ok complete])

/-! ## The slot invariant -/

/-- The buffer was made for `c` fragments and holds piece `j` in slot `j` for exactly the
numbers `j ∈ S`; `received_count` counts them. -/
structure Holds (piece : ℕ → List UInt8) (c : ℕ) (buf : ReassemblyBuffer) (S : Finset ℕ) :
    Prop where
  total : buf.totalFragments.toNat = c
  slot : ∀ j, buf.received[j]? = if j < c then some (if j ∈ S then some (piece j) else none)
    else none
  count : buf.receivedCount.toNat = S.card
  sub : S ⊆ Finset.range c

variable {piece : ℕ → List UInt8} {c : ℕ} {buf : ReassemblyBuffer} {S : Finset ℕ}

theorem holds_new (piece : ℕ → List UInt8) (hc : c < 2 ^ 16) :
    Holds piece c (new (UInt16.ofNat c)) ∅ where
  total := by rw [new, UInt16.toNat_ofNat', Nat.mod_eq_of_lt hc]
  slot j := by
    rw [new, List.getElem?_replicate, UInt16.toNat_ofNat', Nat.mod_eq_of_lt hc]
    simp
  count := rfl
  sub := Finset.empty_subset _

/-- A set of fragment numbers is all of them exactly when it has as many elements. -/
theorem eq_range_iff_card {T : Finset ℕ} (hT : T ⊆ Finset.range c) :
    T = Finset.range c ↔ T.card = c := by
  constructor
  · rintro rfl
    exact Finset.card_range c
  · intro hcard
    exact Finset.eq_of_subset_of_card_le hT (by rw [Finset.card_range, hcard])

theorem Holds.insert (h : Holds piece c buf S) {j : ℕ} (hj : j < c) :
    ∃ buf', buf.insert (UInt16.ofNat j) (piece j) =
        .ok (buf', decide (Insert.insert j S = Finset.range c)) ∧
      Holds piece c buf' (Insert.insert j S) := by
  have hc : c < 2 ^ 16 := h.total ▸ buf.totalFragments.toNat_lt
  have hidx : (UInt16.ofNat j).toNat = j := by rw [UInt16.toNat_ofNat', Nat.mod_eq_of_lt (by omega)]
  have hslot : buf.received.getD j none = if j ∈ S then some (piece j) else none := by
    rw [List.getD_eq_getElem?_getD, h.slot j, if_pos hj]
    rfl
  have hsub : Insert.insert j S ⊆ Finset.range c :=
    Finset.insert_subset (Finset.mem_range.mpr hj) h.sub
  -- the count after the insertion is the size of the new set, whether `j` was new or not
  have hcount : (if (buf.received.getD j none).isNone then buf.receivedCount + 1
      else buf.receivedCount).toNat = (Insert.insert j S).card := by
    rw [hslot]
    by_cases hjS : j ∈ S
    · rw [if_pos hjS, Finset.insert_eq_of_mem hjS]
      exact h.count
    · have hlt : S.card < c := by
        have := Finset.card_lt_card (Finset.ssubset_iff_subset_ne.mpr ⟨h.sub, fun heq =>
          hjS (heq ▸ Finset.mem_range.mpr hj)⟩)
        rwa [Finset.card_range] at this
      rw [if_neg hjS, Finset.card_insert_of_notMem hjS]
      simp only [Option.isNone_none, ↓reduceIte, UInt16.toNat_add, h.count]
      rw [UInt16.toNat_one, Nat.mod_eq_of_lt (by omega)]
  refine ⟨⟨buf.totalFragments, buf.received.set j (some (piece j)),
    if (buf.received.getD j none).isNone then buf.receivedCount + 1 else buf.receivedCount⟩,
    ?_, ⟨h.total, fun i => ?_, hcount, hsub⟩⟩
  · unfold ReassemblyBuffer.insert
    rw [if_neg (by rw [ge_iff_le, UInt16.le_iff_toNat_le, hidx, h.total]; omega)]
    dsimp only
    rw [hidx]
    congr 3
    rw [Bool.eq_iff_iff, beq_iff_eq, ← UInt16.toNat_inj, hcount, h.total, decide_eq_true_iff,
      eq_range_iff_card hsub]
  · dsimp only
    rw [List.getElem?_set]
    by_cases hji : j = i
    · subst hji
      have hlen : j < buf.received.length := by
        have := h.slot j
        rw [if_pos hj] at this
        exact (List.getElem?_eq_some_iff.mp this).1
      rw [if_pos rfl, if_pos hlen, if_pos hj, if_pos (Finset.mem_insert_self j S)]
    · rw [if_neg hji, h.slot i]
      split
      · simp [Finset.mem_insert, Ne.symm hji]
      · rfl

/-- A fragment that carries number `j` and piece `j` fills slot `j`. -/
theorem Holds.receive (h : Holds piece c buf S) {j : ℕ} (hj : j < c) (t : UInt16) :
    ∃ buf', buf.receive (FragmentHeader.toBytes ⟨UInt16.ofNat j, t⟩ ++ piece j) =
        (buf', [.ok (decide (Insert.insert j S = Finset.range c))]) ∧
      Holds piece c buf' (Insert.insert j S) := by
  obtain ⟨buf', hins, h'⟩ := h.insert hj
  have hdrop : (FragmentHeader.toBytes ⟨UInt16.ofNat j, t⟩ ++ piece j).drop fragmentHeaderSize =
      piece j :=
    List.drop_left' (length_FragmentHeader_toBytes _)
  refine ⟨buf', ?_, h'⟩
  simp only [ReassemblyBuffer.receive, FragmentHeader.parse_toBytes, hdrop, hins]

/-- **Reassembly in any order.** Fragments fed in any order and with repeats fill the slots of
the numbers they carry, and each insertion reports whether the numbers received so far are all
of them. -/
theorem Holds.run (frag : ℕ → List UInt8) (t : UInt16)
    (hfrag : ∀ j, frag j = FragmentHeader.toBytes ⟨UInt16.ofNat j, t⟩ ++ piece j) :
    ∀ (order : List ℕ) (buf : ReassemblyBuffer) (S : Finset ℕ), (∀ j ∈ order, j < c) →
      Holds piece c buf S →
      Holds piece c (Machine.run ReassemblyBuffer.receive buf (order.map frag)).1
        (S ∪ order.toFinset) ∧
      (Machine.run ReassemblyBuffer.receive buf (order.map frag)).2 =
        (List.range order.length).map fun k =>
          Except.ok (decide (S ∪ (order.take (k + 1)).toFinset = Finset.range c)) := by
  intro order
  induction order with
  | nil =>
    intro buf S _ h
    simpa using h
  | cons j order ih =>
    intro buf S horder h
    obtain ⟨buf', hstep, h'⟩ := h.receive (horder j List.mem_cons_self) t
    obtain ⟨hrun, hout⟩ := ih buf' _ (fun i hi => horder i (List.mem_cons_of_mem j hi)) h'
    -- what the later insertions have seen, counted from `insert j S`
    have hseen : ∀ (T : Finset ℕ), Insert.insert j S ∪ T = S ∪ Insert.insert j T := by
      intro T
      rw [Finset.insert_union, Finset.union_insert]
    rw [List.map_cons, Machine.run_cons, hfrag j, hstep]
    refine ⟨by rw [List.toFinset_cons, ← hseen]; exact hrun, ?_⟩
    dsimp only
    rw [hout, List.length_cons, List.range_succ_eq_map, List.map_cons, List.map_map,
      List.singleton_append]
    congr 1
    · rw [zero_add, List.take_succ_cons, List.take_zero, List.toFinset_cons, List.toFinset_nil,
        Finset.union_insert, Finset.union_empty]
    · refine List.map_congr_left fun k _ => ?_
      rw [Function.comp_apply, List.take_succ_cons, List.toFinset_cons, hseen]

/-- A buffer holding every piece assembles them in slot order. -/
theorem Holds.assemble (h : Holds piece c buf (Finset.range c)) :
    buf.assemble = .ok ((List.range c).map piece).flatten := by
  have hreceived : buf.received = (List.range c).map (fun j => some (piece j)) := by
    apply List.ext_getElem?
    intro j
    rw [h.slot j, List.getElem?_map]
    by_cases hj : j < c
    · rw [if_pos hj, List.getElem?_range hj, if_pos (Finset.mem_range.mpr hj)]
      rfl
    · rw [if_neg hj, List.getElem?_eq_none (by rw [List.length_range]; omega)]
      rfl
  have hfull : ¬ buf.receivedCount < buf.totalFragments := by
    rw [UInt16.lt_iff_toNat_lt, h.count, h.total, Finset.card_range]
    exact lt_irrefl c
  unfold ReassemblyBuffer.assemble
  rw [if_neg hfull, hreceived, Codec.mapM_eq_ok_map (g := fun o => o.getD []) (by
    intro o ho
    obtain ⟨j, -, rfl⟩ := List.mem_map.mp ho
    rfl), List.map_map]
  rfl

end ReassemblyBuffer

/-! ## The datagram through fragmentation -/

/-- **An XRCE message survives serialization and fragmentation.** A message with a submessage,
every payload of which fits the 16-bit length field, parses back from its serialization; for a
positive `max_payload` that cuts it into at most `u16::MAX` fragments, `fragment_payload`
succeeds, and a `ReassemblyBuffer` for that many fragments, fed the fragments in any order and
with repeats, reports completion exactly from the first insertion after which every fragment
number has arrived, and then assembles the serialized message. -/
theorem xrce_message_survives_fragmentation (msg : XrceMessage) (hne : msg.submessages ≠ [])
    (hfits : ∀ s ∈ msg.submessages, (encodeSubmessage s).2.length < 2 ^ 16)
    (maxPayload : ℕ) (hmax : 0 < maxPayload)
    (hcount : ((serializeMessage msg).length + maxPayload - 1) / maxPayload ≤ 65535) :
    parseMessage (serializeMessage msg) = .ok msg ∧
    ∃ frags, fragmentPayload (serializeMessage msg) maxPayload = .ok frags ∧
      ∀ order : List ℕ, (∀ j ∈ order, j < frags.length) →
        (Machine.run ReassemblyBuffer.receive (ReassemblyBuffer.new (UInt16.ofNat frags.length))
            (order.map fun j => frags.getD j [])).2 =
          (List.range order.length).map
            (fun k => .ok (decide (∀ j < frags.length, j ∈ order.take (k + 1)))) ∧
        ((∀ j < frags.length, j ∈ order) →
          (Machine.run ReassemblyBuffer.receive (ReassemblyBuffer.new (UInt16.ofNat frags.length))
            (order.map fun j => frags.getD j [])).1.assemble = .ok (serializeMessage msg)) := by
  set data := serializeMessage msg
  set c := (data.length + maxPayload - 1) / maxPayload with hc
  have hdata : data ≠ [] := by
    intro hnil
    have := congrArg List.length hnil
    simp [data, serializeMessage] at this
  refine ⟨parseMessage_serializeMessage msg hne hfits, _, fragmentPayload_eq hmax hdata hcount, ?_⟩
  intro order horder
  rw [List.length_map, List.length_range] at horder ⊢
  -- the fragments the buffer is fed are the windows behind their headers
  have hfrag : ∀ j ∈ order, ((List.range c).map (fragmentAt data maxPayload c)).getD j [] =
      fragmentAt data maxPayload c j := by
    intro j hj
    rw [List.getD_eq_getElem?_getD, List.getElem?_map, List.getElem?_range (horder j hj)]
    rfl
  have hmap : order.map (fun j => ((List.range c).map (fragmentAt data maxPayload c)).getD j []) =
      order.map (fragmentAt data maxPayload c) := List.map_congr_left hfrag
  obtain ⟨hholds, hout⟩ := ReassemblyBuffer.Holds.run (fragmentAt data maxPayload c)
    (UInt16.ofNat c) (fun j => rfl) order _ ∅ horder
    (ReassemblyBuffer.holds_new (window data maxPayload) (by omega))
  rw [hmap]
  refine ⟨?_, fun hall => ?_⟩
  · rw [hout]
    refine List.map_congr_left fun k _ => ?_
    have hsub : (order.take (k + 1)).toFinset ⊆ Finset.range c := fun i hi =>
      Finset.mem_range.mpr (horder i (List.mem_of_mem_take (List.mem_toFinset.mp hi)))
    congr 1
    rw [decide_eq_decide, Finset.empty_union]
    constructor
    · intro heq j hj
      rw [← List.mem_toFinset, heq]
      exact Finset.mem_range.mpr hj
    · intro hall
      exact Finset.Subset.antisymm hsub fun j hj =>
        List.mem_toFinset.mpr (hall j (Finset.mem_range.mp hj))
  · have hall' : (∅ ∪ order.toFinset : Finset ℕ) = Finset.range c := by
      ext i
      simp only [Finset.empty_union, List.mem_toFinset, Finset.mem_range]
      exact ⟨horder i, hall i⟩
    rw [hall'] at hholds
    rw [hholds.assemble, flatten_windows hmax]

/-- A DELETE of object 7 from session 1, ten bytes, cut into fragments of four. -/
theorem delete_message_in_three_fragments :
    (let msg : XrceMessage := ⟨⟨1, 0, 5⟩, [.Delete ⟨7⟩]⟩
    parseMessage (serializeMessage msg) = .ok msg ∧
    ∃ frags, fragmentPayload (serializeMessage msg) 4 = .ok frags ∧
      ∀ order : List ℕ, (∀ j ∈ order, j < frags.length) →
        (Machine.run ReassemblyBuffer.receive (ReassemblyBuffer.new (UInt16.ofNat frags.length))
            (order.map fun j => frags.getD j [])).2 =
          (List.range order.length).map
            (fun k => .ok (decide (∀ j < frags.length, j ∈ order.take (k + 1)))) ∧
        ((∀ j < frags.length, j ∈ order) →
          (Machine.run ReassemblyBuffer.receive (ReassemblyBuffer.new (UInt16.ofNat frags.length))
            (order.map fun j => frags.getD j [])).1.assemble = .ok (serializeMessage msg))) :=
  xrce_message_survives_fragmentation _ (by decide) (by decide) 4 (by decide) (by decide)

end Hdds.Xrce
