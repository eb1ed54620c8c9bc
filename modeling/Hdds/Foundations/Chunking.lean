import Mathlib
import Hdds.Foundations.Machine

/-! # Cutting a sequence into parts and collecting the parts back

* Balanced parts: `n` items cut into `c` consecutive parts, the first `n % c` of them one item
  longer. `partOffset_succ` says the parts follow each other, `partOffset_self` that they end at
  `n`, `partSize_le` that none is longer than a bound `m` with `n ≤ c * m`.
* `flatMap_consecutive`: slices of a list that follow each other, joined, are the slice they
  span together.
* Collecting: `collect full` is the machine that gathers the items of a finite set `full` one
  at a time, in any order and with repeats, and completes a round (it says `true` and starts
  over empty) each time the items gathered since the last round cover `full`.
  `run_collect_completes` is the run of one round.
-/

namespace Chunking
set_option autoImplicit false

/-! ## Balanced parts -/

/-- The length of part `j` of `n` items in `c` parts. -/
def partSize (n c j : ℕ) : ℕ := if j < n % c then n / c + 1 else n / c

/-- Where part `j` starts: `j` parts of the base length, and one item more for each earlier
part that is one longer. -/
def partOffset (n c j : ℕ) : ℕ := j * (n / c) + min j (n % c)

theorem partOffset_succ (n c j : ℕ) : partOffset n c (j + 1) = partOffset n c j + partSize n c j := by
  unfold partOffset partSize
  by_cases hj : j < n % c
  · rw [if_pos hj, min_eq_left (by omega : j + 1 ≤ n % c), min_eq_left hj.le, Nat.succ_mul]
    omega
  · rw [if_neg hj, min_eq_right (by omega : n % c ≤ j + 1), min_eq_right (by omega : n % c ≤ j),
      Nat.succ_mul]
    omega

theorem partOffset_mono (n c : ℕ) {j k : ℕ} (h : j ≤ k) : partOffset n c j ≤ partOffset n c k := by
  unfold partOffset
  have := Nat.mul_le_mul_right (n / c) h
  have := min_le_min_right (n % c) h
  omega

theorem partOffset_self {n c : ℕ} (hc : 0 < c) : partOffset n c c = n := by
  unfold partOffset
  rw [min_eq_right (Nat.mod_lt n hc).le]
  exact Nat.div_add_mod n c

theorem partOffset_le {n c j : ℕ} (hc : 0 < c) (hj : j ≤ c) : partOffset n c j ≤ n :=
  calc partOffset n c j ≤ partOffset n c c := partOffset_mono n c hj
    _ = n := partOffset_self hc

/-- No part is longer than `m` when `c` parts of length `m` hold the `n` items. -/
theorem partSize_le {n c m : ℕ} (hc : 0 < c) (h : n ≤ c * m) (j : ℕ) : partSize n c j ≤ m := by
  have hdiv : c * (n / c) + n % c = n := Nat.div_add_mod n c
  unfold partSize
  split
  · -- a longer part exists only when `c` does not divide `n`, so then `n / c < m`
    rename_i hj
    have hlt : c * (n / c) < c * m := by omega
    exact Nat.lt_of_mul_lt_mul_left hlt
  · exact Nat.le_of_mul_le_mul_left (by omega) hc

/-! ## Consecutive slices -/

section Slices

variable {α : Type*}

/-- Slices at offsets `o` with lengths `s` that follow each other (`o (j + 1) = o j + s j`),
joined from `k` on, are the slice from `o k` to `o (k + m)`. -/
theorem flatMap_consecutive (l : List α) (o s : ℕ → ℕ) (ho : ∀ j, o (j + 1) = o j + s j)
    (k m : ℕ) :
    (List.range' k m).flatMap (fun j => (l.drop (o j)).take (s j)) =
      (l.drop (o k)).take (o (k + m) - o k) := by
  -- the offsets never decrease, so `o k ≤ o (k + m)`
  have hmono : ∀ k m, o k ≤ o (k + m) := by
    intro k m
    induction m with
    | zero => rfl
    | succ m ih => rw [← Nat.add_assoc, ho]; omega
  induction m generalizing k with
  | zero => simp
  | succ m ih =>
    have hsplit : o (k + (m + 1)) - o k = s k + (o (k + 1 + m) - o (k + 1)) := by
      have := hmono (k + 1) m
      rw [show k + (m + 1) = k + 1 + m by omega, ho k] at *
      omega
    rw [List.range'_succ, List.flatMap_cons, ih (k + 1), hsplit, List.take_add, List.drop_drop,
      ho k, Nat.add_comm (o k) (s k)]

/-- The lengths of parts that follow each other add up to the span they cover. -/
theorem sum_consecutive (o s : ℕ → ℕ) (ho : ∀ j, o (j + 1) = o j + s j) (m : ℕ) :
    ((List.range m).map s).sum = o m - o 0 := by
  induction m with
  | zero => simp
  | succ m ih =>
    have hmono : o 0 ≤ o m := by
      clear ih
      induction m with
      | zero => rfl
      | succ m ihm => rw [ho]; omega
    rw [List.range_succ, List.map_append, List.sum_append, ih, ho m]
    simp only [List.map_cons, List.map_nil, List.sum_cons, List.sum_nil]
    omega

end Slices

/-! ## Collecting rounds -/

section Collect

variable {α : Type*} [DecidableEq α] (full : Finset α)

/-- One item arriving at a collector that holds `S`: the round completes when the items cover
`full`, and the collector then holds nothing. -/
def collect (S : Finset α) (a : α) : Finset α × List Bool :=
  if insert a S = full then (∅, [true]) else (insert a S, [false])

theorem collect_of_eq {S : Finset α} {a : α} (h : insert a S = full) : collect full S a = (∅, [true]) :=
  if_pos h

theorem collect_of_ne {S : Finset α} {a : α} (h : insert a S ≠ full) :
    collect full S a = (insert a S, [false]) :=
  if_neg h

/-- A collector that holds part of `full` still holds part of it after an item of `full`:
it never rests on all of `full`. -/
theorem collect_fst_ssubset {S : Finset α} {a : α} (hS : S ⊂ full) (ha : a ∈ full) :
    (collect full S a).1 ⊂ full := by
  unfold collect
  split
  · exact Finset.empty_ssubset.mpr ⟨a, ha⟩
  · rename_i hne
    exact Finset.ssubset_iff_subset_ne.mpr ⟨Finset.insert_subset ha hS.subset, hne⟩

/-- Items that, with `S`, do not cover `full` complete no round. -/
theorem run_collect_of_not_covers {S : Finset α} {as : List α} (h : ¬ full ⊆ S ∪ as.toFinset) :
    Machine.run (collect full) S as = (S ∪ as.toFinset, List.replicate as.length false) := by
  induction as generalizing S with
  | nil => simp
  | cons a as ih =>
    have hS : insert a S ∪ as.toFinset = S ∪ (a :: as).toFinset := by
      ext x; simp only [Finset.mem_union, Finset.mem_insert, List.mem_toFinset, List.mem_cons]; tauto
    have hne : insert a S ≠ full := by
      intro heq
      apply h
      rw [← heq, ← hS]
      exact Finset.subset_union_left
    rw [Machine.run_cons, collect_of_ne full hne, ih (by rwa [hS]), hS]
    simp [List.replicate_succ]

/-- One round: the item `a` that makes the items gathered since `S` cover `full` completes it,
the items before it complete nothing, and the collector goes on empty after it. -/
theorem run_collect_completes {S : Finset α} {pre : List α} {a : α} (post : List α)
    (hpre : ¬ full ⊆ S ∪ pre.toFinset) (hfull : insert a (S ∪ pre.toFinset) = full) :
    (Machine.run (collect full) S (pre ++ a :: post)).2 =
      List.replicate pre.length false ++ true :: (Machine.run (collect full) ∅ post).2 := by
  rw [Machine.run_append, run_collect_of_not_covers full hpre, Machine.run_cons,
    collect_of_eq full hfull]
  simp

end Collect

end Chunking
