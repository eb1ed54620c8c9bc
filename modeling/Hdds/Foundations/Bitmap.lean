import Hdds.Foundations.Bytes

/-! # Bitmaps of 32-bit words, and the runs a bitmap encodes

A set of naturals near a base is sent as a list of 32-bit words. Two bit orders are in use:
`msb words i` numbers bits from the most significant bit of the first word (bit `i` is bit
`31 - i % 32` of word `i / 32`), `lsb words i` from the least significant bit. `setMsb` and
`setLsb` are `words[i / 32] |= mask`, with an index past the last word ignored.

`leadingZeros32` is `u32::leading_zeros`; `highBit_spec` pins down what `31 - leading_zeros`
is, the position of the highest set bit.

The second half is the decoder's loop: `scan p lbl i k start` visits positions `i … i+k-1`,
opens a range at the first position where `p` holds and closes it at the first where it
fails. `IsRuns S rs` says that `rs` lists the maximal runs of `S` as half-open ranges in
increasing order, and `scan_isRuns` says the scanner computes exactly these.
-/

namespace Bitmap
set_option autoImplicit false

/-! ## Bits of a word list -/

/-- Bit `i` of the bitmap, most significant bit of word 0 first. -/
def msb (words : List ℕ) (i : ℕ) : Bool := (words.getD (i / 32) 0).testBit (31 - i % 32)

/-- Bit `i` of the bitmap, least significant bit of word 0 first. -/
def lsb (words : List ℕ) (i : ℕ) : Bool := (words.getD (i / 32) 0).testBit (i % 32)

/-- `words[i / 32] |= 1 << (31 - i % 32)` when word `i / 32` exists. -/
def setMsb (words : List ℕ) (i : ℕ) : List ℕ := words.modify (i / 32) (· ||| 1 <<< (31 - i % 32))

/-- `words[i / 32] |= 1 << (i % 32)` when word `i / 32` exists. -/
def setLsb (words : List ℕ) (i : ℕ) : List ℕ := words.modify (i / 32) (· ||| 1 <<< (i % 32))

/-- Every word fits in 32 bits. -/
def Fits32 (words : List ℕ) : Prop := ∀ i, words.getD i 0 < 2 ^ 32

/-- `u32::leading_zeros` of a word below `2 ^ 32`. -/
def leadingZeros32 (w : ℕ) : ℕ := if w = 0 then 32 else 31 - Nat.log2 w

theorem getD_modify (words : List ℕ) (f : ℕ → ℕ) (j i : ℕ) :
    (words.modify j f).getD i 0 = if i = j ∧ j < words.length then f (words.getD i 0)
      else words.getD i 0 := by
  simp only [List.getD_eq_getElem?_getD, List.getElem?_modify]
  by_cases hij : j = i
  · subst hij
    by_cases hlt : j < words.length
    · simp [hlt]
    · simp [hlt]
  · have hne : ¬(i = j ∧ j < words.length) := fun h => hij h.1.symm
    simp [hij, hne]

/-- Position `a` of the mask `1 << b`, for positions of one word. -/
theorem testBit_shift_one (a b : ℕ) : (1 <<< b).testBit a = decide (b = a) := by
  rw [Nat.one_shiftLeft, Nat.testBit_two_pow]

/-- `word & (1 << k) != 0` tests bit `k`. -/
theorem and_shift_ne_zero (w k : ℕ) : (w &&& 1 <<< k ≠ 0) ↔ w.testBit k = true := by
  rw [Nat.one_shiftLeft]
  constructor
  · intro h
    obtain ⟨i, hi⟩ := Nat.exists_testBit_of_ne_zero h
    rw [Nat.testBit_and, Nat.testBit_two_pow] at hi
    obtain ⟨hw, hk⟩ := Bool.and_eq_true_iff.mp hi
    rw [decide_eq_true_eq] at hk
    rwa [hk]
  · intro h heq
    have := congrArg (Nat.testBit · k) heq
    simp [Nat.testBit_and, h] at this

theorem msb_setMsb (words : List ℕ) (j i : ℕ) :
    msb (setMsb words j) i = (msb words i || decide (i = j ∧ j / 32 < words.length)) := by
  unfold msb setMsb
  rw [getD_modify]
  by_cases hw : i / 32 = j / 32 ∧ j / 32 < words.length
  · rw [if_pos hw, Nat.testBit_or, testBit_shift_one]
    have hbit : (31 - j % 32 = 31 - i % 32) ↔ i = j := by omega
    simp [hbit, hw.2]
  · rw [if_neg hw]
    have hij : ¬(i = j ∧ j / 32 < words.length) := fun h => hw ⟨by rw [h.1], h.2⟩
    simp [hij]

theorem lsb_setLsb (words : List ℕ) (j i : ℕ) :
    lsb (setLsb words j) i = (lsb words i || decide (i = j ∧ j / 32 < words.length)) := by
  unfold lsb setLsb
  rw [getD_modify]
  by_cases hw : i / 32 = j / 32 ∧ j / 32 < words.length
  · rw [if_pos hw, Nat.testBit_or, testBit_shift_one]
    have hbit : (j % 32 = i % 32) ↔ i = j := by omega
    simp [hbit, hw.2]
  · rw [if_neg hw]
    have hij : ¬(i = j ∧ j / 32 < words.length) := fun h => hw ⟨by rw [h.1], h.2⟩
    simp [hij]

@[simp] theorem length_setMsb (words : List ℕ) (i : ℕ) : (setMsb words i).length = words.length :=
  List.length_modify _ _ _

@[simp] theorem length_setLsb (words : List ℕ) (i : ℕ) : (setLsb words i).length = words.length :=
  List.length_modify _ _ _

theorem fits32_replicate_zero (n : ℕ) : Fits32 (List.replicate n 0) := by
  intro i
  simp only [List.getD_eq_getElem?_getD, List.getElem?_replicate]
  split <;> simp

theorem Fits32.setMsb {words : List ℕ} (h : Fits32 words) (j : ℕ) : Fits32 (setMsb words j) := by
  intro i
  unfold Bitmap.setMsb
  rw [getD_modify]
  split
  · exact Nat.or_lt_two_pow (h i) (by rw [Nat.one_shiftLeft]; exact Nat.pow_lt_pow_right (by norm_num) (by omega))
  · exact h i

theorem Fits32.setLsb {words : List ℕ} (h : Fits32 words) (j : ℕ) : Fits32 (setLsb words j) := by
  intro i
  unfold Bitmap.setLsb
  rw [getD_modify]
  split
  · exact Nat.or_lt_two_pow (h i) (by rw [Nat.one_shiftLeft]; exact Nat.pow_lt_pow_right (by norm_num) (by omega))
  · exact h i

theorem fits32_of_forall {words : List ℕ} (h : ∀ w ∈ words, w < 2 ^ 32) : Fits32 words := by
  intro i
  rw [List.getD_eq_getElem?_getD]
  cases hi : words[i]? with
  | none => simp
  | some w => exact h w (List.mem_of_getElem? hi)

/-- A word none of whose 32 bits is set is zero. -/
theorem getD_eq_zero_of_msb {words : List ℕ} (h : Fits32 words) (j : ℕ)
    (hbits : ∀ i < 32, msb words (32 * j + i) = false) : words.getD j 0 = 0 := by
  apply Nat.eq_of_testBit_eq
  intro k
  rw [Nat.zero_testBit]
  by_cases hk : k < 32
  · have hbit := hbits (31 - k) (by omega)
    rwa [msb, show (32 * j + (31 - k)) / 32 = j by omega,
      show 31 - (32 * j + (31 - k)) % 32 = k by omega] at hbit
  · exact Nat.testBit_lt_two_pow (lt_of_lt_of_le (h j) (Nat.pow_le_pow_right (by norm_num) (by omega)))

@[simp] theorem msb_replicate_zero (n i : ℕ) : msb (List.replicate n 0) i = false := by
  simp [msb, List.getD_eq_getElem?_getD, List.getElem?_replicate]
  split <;> simp

@[simp] theorem lsb_replicate_zero (n i : ℕ) : lsb (List.replicate n 0) i = false := by
  simp [lsb, List.getD_eq_getElem?_getD, List.getElem?_replicate]
  split <;> simp

/-- `31 - leading_zeros` of a non-zero word is the position of its highest set bit: that bit is
set and every bit above it is clear. -/
theorem highBit_spec {w : ℕ} (h0 : w ≠ 0) (h32 : w < 2 ^ 32) :
    31 - leadingZeros32 w = Nat.log2 w ∧ w.testBit (Nat.log2 w) = true ∧
      ∀ k, Nat.log2 w < k → w.testBit k = false := by
  have hlog : Nat.log2 w < 32 := (Nat.log2_lt h0).mpr h32
  refine ⟨?_, Nat.testBit_log2 h0, fun k hk => Nat.testBit_lt_two_pow ?_⟩
  · unfold leadingZeros32
    rw [if_neg h0]
    omega
  · calc w < 2 ^ (Nat.log2 w + 1) := Nat.lt_log2_self
      _ ≤ 2 ^ k := Nat.pow_le_pow_right (by norm_num) hk

/-! ## Runs -/

/-- `rs` lists the maximal runs of `S`: non-empty half-open ranges, in increasing order, with at
least one non-member between two of them, together covering exactly `S`. -/
def IsRuns (S : ℕ → Prop) (rs : List (ℕ × ℕ)) : Prop :=
  (∀ r ∈ rs, r.1 < r.2) ∧ rs.IsChain (fun r r' => r.2 < r'.1) ∧
    ∀ x, S x ↔ ∃ r ∈ rs, r.1 ≤ x ∧ x < r.2

theorem IsRuns.congr {S T : ℕ → Prop} {rs : List (ℕ × ℕ)} (h : IsRuns S rs)
    (hST : ∀ x, S x ↔ T x) : IsRuns T rs :=
  ⟨h.1, h.2.1, fun x => (hST x).symm.trans (h.2.2 x)⟩

theorem isRuns_nil {S : ℕ → Prop} (hS : ∀ x, ¬S x) : IsRuns S [] :=
  ⟨by simp, List.IsChain.nil, fun x => by simp [hS x]⟩

/-- A run below every member of `S` in front of the runs of `S`. -/
theorem IsRuns.cons {S : ℕ → Prop} {rs : List (ℕ × ℕ)} (h : IsRuns S rs) {a b : ℕ} (hab : a < b)
    (hlt : ∀ x, S x → b < x) : IsRuns (fun x => (a ≤ x ∧ x < b) ∨ S x) ((a, b) :: rs) := by
  obtain ⟨hne, hchain, hmem⟩ := h
  refine ⟨?_, ?_, ?_⟩
  · intro r hr
    rcases List.mem_cons.mp hr with rfl | hr
    · exact hab
    · exact hne r hr
  · cases rs with
    | nil => exact List.IsChain.singleton _
    | cons r rs =>
      have hr : S r.1 := (hmem r.1).mpr ⟨r, List.mem_cons_self, le_refl _, hne r List.mem_cons_self⟩
      exact List.IsChain.cons_cons (hlt _ hr) hchain
  · intro x
    simp only [List.mem_cons, exists_eq_or_imp]
    rw [hmem x]

theorem isRuns_single {a b : ℕ} (hab : a < b) : IsRuns (fun x => a ≤ x ∧ x < b) [(a, b)] :=
  ((isRuns_nil (S := fun _ => False) (fun _ h => h)).cons hab (fun _ h => h.elim)).congr
    (fun x => by simp)

/-- The runs of a set are ordered: every run ends before each later one starts. -/
theorem IsRuns.pairwise {S : ℕ → Prop} {rs : List (ℕ × ℕ)} (h : IsRuns S rs) :
    rs.Pairwise (fun r r' => r.2 < r'.1) := by
  obtain ⟨hne, hchain, -⟩ := h
  induction rs with
  | nil => exact List.Pairwise.nil
  | cons r rs ih =>
    have ih' := ih (fun r' hr' => hne r' (List.mem_cons_of_mem r hr')) hchain.tail
    refine List.Pairwise.cons (fun r' hr' => ?_) ih'
    cases rs with
    | nil => simp at hr'
    | cons r₁ rs =>
      have h₁ : r.2 < r₁.1 := (List.isChain_cons_cons.mp hchain).1
      rcases List.mem_cons.mp hr' with rfl | hr'
      · exact h₁
      · have h₂ := List.rel_of_pairwise_cons ih' hr'
        have h₃ := hne r₁ (by simp)
        omega

/-- The runs of the members of a list without repetitions are as long together as the list. -/
theorem IsRuns.sum_eq_length {l : List ℕ} (hl : l.Nodup) {rs : List (ℕ × ℕ)}
    (h : IsRuns (· ∈ l) rs) : (rs.map fun r => r.2 - r.1).sum = l.length := by
  -- the members of the runs, run after run
  let members := rs.flatMap fun r => List.range' r.1 (r.2 - r.1)
  have hlen : members.length = (rs.map fun r => r.2 - r.1).sum := by
    simp [members, List.length_flatMap]
  have hnodup : members.Nodup := by
    refine List.nodup_flatMap.mpr ⟨fun r _ => List.nodup_range' .., ?_⟩
    refine h.pairwise.imp fun {r r'} hlt => ?_
    rw [Function.onFun, List.disjoint_left]
    intro x hx hx'
    rw [List.mem_range'_1] at hx hx'
    omega
  have hmem : ∀ x, x ∈ members ↔ x ∈ l := by
    intro x
    rw [show x ∈ l ↔ _ from h.2.2 x]
    simp only [members, List.mem_flatMap, List.mem_range'_1]
    constructor
    · rintro ⟨r, hr, hx⟩
      exact ⟨r, hr, by omega⟩
    · rintro ⟨r, hr, hx⟩
      exact ⟨r, hr, by omega⟩
  rw [← hlen]
  exact ((List.perm_ext_iff_of_nodup hnodup hl).mpr hmem).length_eq

/-! ## The scanner -/

/-- The decoder's loop over positions `i, i + 1, …, i + k - 1`. `p j` says whether position `j`
belongs to the set, `lbl j` is the label a range boundary at `j` gets, and `start` is the label
where the run being read began. -/
def scan (p : ℕ → Bool) (lbl : ℕ → ℕ) : ℕ → ℕ → Option ℕ → List (ℕ × ℕ)
  | _, 0, none => []
  | i, 0, some s => [(s, lbl i)]
  | i, k + 1, start =>
    if p i then scan p lbl (i + 1) k (some (start.getD (lbl i)))
    else match start with
      | none => scan p lbl (i + 1) k none
      | some s => (s, lbl i) :: scan p lbl (i + 1) k none

/-- Only the labels of the visited positions and of the end position matter. -/
theorem scan_congr (p : ℕ → Bool) {lbl lbl' : ℕ → ℕ} :
    ∀ (i k : ℕ) (start : Option ℕ), (∀ j, i ≤ j → j ≤ i + k → lbl j = lbl' j) →
      scan p lbl i k start = scan p lbl' i k start
  | _, 0, none, _ => rfl
  | i, 0, some s, h => by simp [scan, h i le_rfl (by omega)]
  | i, k + 1, start, h => by
    have hi : lbl i = lbl' i := h i le_rfl (by omega)
    have ih := @scan_congr p lbl lbl' (i + 1) k
    have hrest : ∀ j, i + 1 ≤ j → j ≤ i + 1 + k → lbl j = lbl' j :=
      fun j h1 h2 => h j (by omega) (by omega)
    cases start with
    | none => simp only [scan, hi, ih _ hrest]
    | some s => simp only [scan, hi, ih _ hrest]

/-- What the scanner reads between `i` and `i + k`: the labels of the positions where `p` holds. -/
def Marked (p : ℕ → Bool) (base i k : ℕ) (x : ℕ) : Prop :=
  ∃ j, i ≤ j ∧ j < i + k ∧ p j = true ∧ x = base + j

theorem marked_zero (p : ℕ → Bool) (base i x : ℕ) : ¬Marked p base i 0 x := by
  rintro ⟨j, h1, h2, -⟩
  omega

/-- Peeling the first position off the window. -/
theorem marked_succ (p : ℕ → Bool) (base i k x : ℕ) :
    Marked p base i (k + 1) x ↔ (p i = true ∧ x = base + i) ∨ Marked p base (i + 1) k x := by
  constructor
  · rintro ⟨j, h1, h2, hp, rfl⟩
    by_cases hj : j = i
    · subst hj
      exact Or.inl ⟨hp, rfl⟩
    · exact Or.inr ⟨j, by omega, by omega, hp, rfl⟩
  · rintro (⟨hp, rfl⟩ | ⟨j, h1, h2, hp, rfl⟩)
    · exact ⟨i, le_rfl, by omega, hp, rfl⟩
    · exact ⟨j, by omega, by omega, hp, rfl⟩

theorem marked_gt (p : ℕ → Bool) (base i k x : ℕ) (h : Marked p base i k x) : base + i ≤ x := by
  obtain ⟨j, h1, -, -, rfl⟩ := h
  omega

mutual

/-- The scanner with an open run that began at `s`: its output lists the runs of `[s, base + i)`
together with everything marked from `i` on. -/
theorem scan_isRuns_open (p : ℕ → Bool) (base : ℕ) :
    ∀ (i k s : ℕ), s < base + i →
      IsRuns (fun x => (s ≤ x ∧ x < base + i) ∨ Marked p base i k x)
        (scan p (base + ·) i k (some s))
  | i, 0, s, hs => (isRuns_single hs).congr (fun x => by simp [marked_zero])
  | i, k + 1, s, hs => by
    by_cases hp : p i = true
    · -- the open run grows by position `i`
      have ih := scan_isRuns_open p base (i + 1) k s (by omega)
      simp only [scan, hp, if_true, Option.getD_some]
      refine ih.congr (fun x => ?_)
      rw [marked_succ]
      constructor
      · rintro (⟨h1, h2⟩ | hm)
        · by_cases hx : x = base + i
          · exact Or.inr (Or.inl ⟨hp, hx⟩)
          · exact Or.inl ⟨h1, by omega⟩
        · exact Or.inr (Or.inr hm)
      · rintro (⟨h1, h2⟩ | ⟨-, rfl⟩ | hm)
        · exact Or.inl ⟨h1, by omega⟩
        · exact Or.inl ⟨by omega, by omega⟩
        · exact Or.inr hm
    · -- position `i` closes the open run
      have hp' : p i = false := by simpa using hp
      have ih := scan_isRuns p base (i + 1) k
      simp only [scan, hp', Bool.false_eq_true, if_false]
      refine (ih.cons hs (fun x hx => by have := marked_gt p base _ _ x hx; omega)).congr
        (fun x => ?_)
      rw [marked_succ]
      simp [hp']

/-- The scanner from a closed state lists the maximal runs of the marked labels. -/
theorem scan_isRuns (p : ℕ → Bool) (base : ℕ) :
    ∀ (i k : ℕ), IsRuns (Marked p base i k) (scan p (base + ·) i k none)
  | i, 0 => isRuns_nil (marked_zero p base i)
  | i, k + 1 => by
    by_cases hp : p i = true
    · have ih := scan_isRuns_open p base (i + 1) k (base + i) (by omega)
      simp only [scan, hp, if_true, Option.getD_none]
      refine ih.congr (fun x => ?_)
      rw [marked_succ]
      constructor
      · rintro (⟨h1, h2⟩ | hm)
        · exact Or.inl ⟨hp, by omega⟩
        · exact Or.inr hm
      · rintro (⟨-, rfl⟩ | hm)
        · exact Or.inl ⟨le_rfl, by omega⟩
        · exact Or.inr hm
    · have hp' : p i = false := by simpa using hp
      have ih := scan_isRuns p base (i + 1) k
      simp only [scan, hp', Bool.false_eq_true, if_false]
      refine ih.congr (fun x => ?_)
      rw [marked_succ]
      simp [hp']

end

end Bitmap
