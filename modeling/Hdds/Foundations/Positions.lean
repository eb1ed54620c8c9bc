import Mathlib

/-! # Removing chosen entries of a list

Batch removals from a `Vec` or `VecDeque` collect the positions of the entries to drop in
ascending order (`iter().enumerate().filter(..).take(n)`) and then `remove` them from the highest
down, so that every position still names the entry it was collected for.

* `pickFirst p n l` splits `l` into its first `n` entries satisfying `p` and the others, both in
  their order in `l`; `pickFirst_append` splits a pick at any point of the list.
* `foldl_eraseWith` says that removing the collected positions from the highest down leaves
  `(pickFirst p n l).2` and hands every removed entry, with its position, to the accumulator.
* `RemovesAround l c l' c'` is what a removal does to a list with a cursor `c` into it: what stays
  of the entries before the cursor stays before the new cursor `c'`. Dropping a prefix, removing
  one position and removing a pick all have this shape.
* `insertBefore p a l` is `position(p).unwrap_or(len)` followed by `insert`: `a` goes before the
  first entry satisfying `p`. Inserting before the first entry of a greater key keeps a list
  sorted by that key (`pairwise_insertBefore`).
-/

namespace Positions
open scoped List
set_option autoImplicit false

variable {α β : Type*}

/-- The first `n` entries of a list that satisfy `p`, and the other entries. -/
def pickFirst (p : α → Bool) : ℕ → List α → List α × List α
  | _, [] => ([], [])
  | 0, l => ([], l)
  | n + 1, a :: l =>
    if p a then (a :: (pickFirst p n l).1, (pickFirst p n l).2)
    else ((pickFirst p (n + 1) l).1, a :: (pickFirst p (n + 1) l).2)

section Pick

variable (p : α → Bool)

@[simp] theorem pickFirst_nil (n : ℕ) : pickFirst p n ([] : List α) = ([], []) := by
  cases n
  · rfl
  · rfl

@[simp] theorem pickFirst_zero (l : List α) : pickFirst p 0 l = ([], l) := by
  cases l
  · rfl
  · rfl

theorem pickFirst_cons_of_pos (n : ℕ) (a : α) (l : List α) (ha : p a = true) :
    pickFirst p (n + 1) (a :: l) = (a :: (pickFirst p n l).1, (pickFirst p n l).2) := by
  simp [pickFirst, ha]

theorem pickFirst_cons_of_neg (n : ℕ) (a : α) (l : List α) (ha : p a = false) :
    pickFirst p (n + 1) (a :: l) = ((pickFirst p (n + 1) l).1, a :: (pickFirst p (n + 1) l).2) := by
  simp [pickFirst, ha]

/-- What is picked is the first `n` entries of the filter. -/
theorem pickFirst_fst (n : ℕ) (l : List α) : (pickFirst p n l).1 = (l.filter p).take n := by
  induction l generalizing n with
  | nil => simp
  | cons a l ih =>
    cases n with
    | zero => simp
    | succ n =>
      cases ha : p a
      · rw [pickFirst_cons_of_neg p n a l ha, List.filter_cons_of_neg (by simp [ha]), ih]
      · rw [pickFirst_cons_of_pos p n a l ha, List.filter_cons_of_pos ha, ih, List.take_succ_cons]

/-- Every entry lands on exactly one side. -/
theorem perm_pickFirst (n : ℕ) (l : List α) :
    (pickFirst p n l).1 ++ (pickFirst p n l).2 ~ l := by
  induction l generalizing n with
  | nil => simp
  | cons a l ih =>
    cases n with
    | zero => simp
    | succ n =>
      cases ha : p a
      · rw [pickFirst_cons_of_neg p n a l ha]
        exact List.perm_middle.trans ((ih (n + 1)).cons a)
      · rw [pickFirst_cons_of_pos p n a l ha]
        exact (ih n).cons a

theorem pickFirst_snd_sublist (n : ℕ) (l : List α) : (pickFirst p n l).2 <+ l := by
  induction l generalizing n with
  | nil => simp
  | cons a l ih =>
    cases n with
    | zero => simp
    | succ n =>
      cases ha : p a
      · rw [pickFirst_cons_of_neg p n a l ha]
        exact (ih (n + 1)).cons_cons a
      · rw [pickFirst_cons_of_pos p n a l ha]
        exact (ih n).cons a

theorem pickFirst_fst_sublist (n : ℕ) (l : List α) : (pickFirst p n l).1 <+ l := by
  rw [pickFirst_fst]
  exact (List.take_sublist _ _).trans List.filter_sublist

theorem length_pickFirst (n : ℕ) (l : List α) :
    (pickFirst p n l).1.length + (pickFirst p n l).2.length = l.length := by
  rw [← List.length_append]
  exact (perm_pickFirst p n l).length_eq

/-- A pick over `A ++ B` picks from `A` first and takes what is left of `n` from `B`. -/
theorem pickFirst_append (n : ℕ) (A B : List α) :
    pickFirst p n (A ++ B) =
      ((pickFirst p n A).1 ++ (pickFirst p (n - (pickFirst p n A).1.length) B).1,
        (pickFirst p n A).2 ++ (pickFirst p (n - (pickFirst p n A).1.length) B).2) := by
  induction A generalizing n with
  | nil => simp
  | cons a A ih =>
    cases n with
    | zero => simp
    | succ n =>
      cases ha : p a
      · simp only [List.cons_append, pickFirst_cons_of_neg p n a _ ha, ih]
      · simp only [List.cons_append, pickFirst_cons_of_pos p n a _ ha, ih, List.length_cons,
          Nat.add_sub_add_right]

end Pick

/-! ## Removing collected positions from the highest down -/

/-- `if let Some(x) = v.remove(i) { .. }`: remove position `i` if the list still has it, and hand
the entry and its position to `g`. -/
def eraseWith (g : β → ℕ → α → β) (acc : List α × β) (i : ℕ) : List α × β :=
  match acc.1[i]? with
  | some a => (acc.1.eraseIdx i, g acc.2 i a)
  | none => acc

theorem eraseWith_at_split (g : β → ℕ → α → β) (pre rest : List α) (a : α) (b : β) :
    eraseWith g (pre ++ a :: rest, b) pre.length = (pre ++ rest, g b pre.length a) := by
  simp only [eraseWith, List.getElem?_append_right (Nat.le_refl _), Nat.sub_self,
    List.getElem?_cons_zero]
  rw [List.eraseIdx_append_of_length_le (Nat.le_refl _), Nat.sub_self, List.eraseIdx_cons_zero]

/-- Removing from the highest collected position down: the entries after `pre` lose exactly what
`pickFirst` picks, and the accumulator sees the picked entries from the last to the first. -/
theorem foldl_eraseWith (p : α → Bool) (g : β → ℕ → α → β) (pre l : List α) (n : ℕ) (b : β) :
    ((((l.zipIdx pre.length).filter fun q => p q.1).take n).map (·.2)).reverse.foldl
        (eraseWith g) (pre ++ l, b) =
      (pre ++ (pickFirst p n l).2,
        (((l.zipIdx pre.length).filter fun q => p q.1).take n).reverse.foldl
          (fun b q => g b q.2 q.1) b) := by
  induction l generalizing pre n b with
  | nil => simp
  | cons a l ih =>
    -- the entries after `a` are removed first, by the induction hypothesis at `pre ++ [a]`
    have hshift := ih (pre ++ [a])
    simp only [List.length_append, List.length_singleton, List.append_assoc,
      List.singleton_append] at hshift
    cases n with
    | zero => simp
    | succ n =>
      rw [List.zipIdx_cons]
      cases ha : p a
      · rw [List.filter_cons_of_neg (by simp [ha]), hshift, pickFirst_cons_of_neg p n a l ha]
      · rw [List.filter_cons_of_pos (by simp [ha]), List.take_succ_cons, List.map_cons,
          List.reverse_cons, List.foldl_append, hshift, pickFirst_cons_of_pos p n a l ha,
          List.reverse_cons, List.foldl_append]
        simp only [List.foldl_cons, List.foldl_nil, eraseWith_at_split]

/-- The picked entries, read off the collected pairs. -/
theorem map_fst_take_filter_zipIdx (p : α → Bool) (n k : ℕ) (l : List α) :
    (((l.zipIdx k).filter fun q => p q.1).take n).map (·.1) = (pickFirst p n l).1 := by
  rw [pickFirst_fst, List.map_take]
  congr 1
  rw [show (fun q : α × ℕ => p q.1) = p ∘ Prod.fst from rfl, ← List.filter_map,
    List.zipIdx_map_fst]

/-- The collected positions below `k + c` are those of the entries picked from `l.take c`. -/
theorem length_filter_lt_take_filter_zipIdx (p : α → Bool) (n k c : ℕ) (l : List α) :
    ((((l.zipIdx k).filter fun q => p q.1).take n).filter fun q => q.2 < k + c).length =
      (pickFirst p n (l.take c)).1.length := by
  induction l generalizing n k c with
  | nil => simp
  | cons a l ih =>
    cases c with
    | zero =>
      -- every collected position is at least `k`
      have hge : ∀ q ∈ ((a :: l).zipIdx k).filter (fun q => p q.1), k ≤ q.2 := by
        intro q hq
        exact (List.le_snd_of_mem_zipIdx (List.mem_of_mem_filter hq))
      simp only [Nat.add_zero, List.take_zero, pickFirst_nil, List.length_nil,
        List.length_eq_zero_iff, List.filter_eq_nil_iff, decide_eq_true_eq, Nat.not_lt]
      exact fun q hq => hge q (List.mem_of_mem_take hq)
    | succ c =>
      cases n with
      | zero => simp
      | succ n =>
        rw [List.zipIdx_cons, List.take_succ_cons]
        have hk : k + 1 + c = k + (c + 1) := by omega
        cases ha : p a
        · rw [List.filter_cons_of_neg (by simp [ha]), pickFirst_cons_of_neg p n a _ ha,
            ← hk, ih]
        · rw [List.filter_cons_of_pos (by simp [ha]), List.take_succ_cons,
            List.filter_cons_of_pos (by simp), pickFirst_cons_of_pos p n a _ ha,
            List.length_cons, List.length_cons, ← hk, ih]

/-- A list around one of its entries. -/
theorem eq_take_append_cons_drop {l : List α} {n : ℕ} {a : α} (h : l[n]? = some a) :
    l = l.take n ++ a :: l.drop (n + 1) := by
  obtain ⟨hn, rfl⟩ := List.getElem?_eq_some_iff.mp h
  conv_lhs => rw [← List.take_append_drop n l, List.drop_eq_getElem_cons hn]

theorem perm_cons_eraseIdx (l : List α) (i : ℕ) (hi : i < l.length) :
    l[i] :: l.eraseIdx i ~ l := by
  conv_rhs => rw [← List.take_append_drop i l, List.drop_eq_getElem_cons hi]
  rw [List.eraseIdx_eq_take_drop_succ]
  exact List.perm_middle.symm

/-! ## Removals around a cursor -/

/-- What a removal does to a list with a cursor into it: what stays of the entries before the
cursor stays before it, and the cursor counts them. -/
def RemovesAround (l : List α) (c : ℕ) (l' : List α) (c' : ℕ) : Prop :=
  ∃ before after, l' = before ++ after ∧ before <+ l.take c ∧ after <+ l.drop c ∧
    c' = before.length

namespace RemovesAround

variable {l l' : List α} {c c' : ℕ}

theorem sublist (h : RemovesAround l c l' c') : l' <+ l := by
  obtain ⟨before, after, rfl, hbefore, hafter, -⟩ := h
  simpa only [List.take_append_drop] using hbefore.append hafter

theorem cursor_le (h : RemovesAround l c l' c') : c' ≤ l'.length := by
  obtain ⟨before, after, rfl, -, -, rfl⟩ := h
  simp

theorem take_sublist (h : RemovesAround l c l' c') : l'.take c' <+ l.take c := by
  obtain ⟨before, after, rfl, hbefore, -, rfl⟩ := h
  rwa [List.take_left' rfl]

end RemovesAround

theorem removesAround_drop (l : List α) (c k : ℕ) (hc : c ≤ l.length) :
    RemovesAround l c (l.drop k) (c - k) := by
  refine ⟨(l.take c).drop k, (l.drop c).drop (k - c), ?_, List.drop_sublist _ _,
    List.drop_sublist _ _, ?_⟩
  · conv_lhs => rw [← List.take_append_drop c l]
    rw [List.drop_append, List.length_take, Nat.min_eq_left hc]
  · rw [List.length_drop, List.length_take, Nat.min_eq_left hc]

theorem removesAround_eraseIdx (l : List α) (c i : ℕ) (hc : c ≤ l.length) :
    RemovesAround l c (l.eraseIdx i) (if i < c then c - 1 else c) := by
  have htake : (l.take c).length = c := by rw [List.length_take, Nat.min_eq_left hc]
  by_cases hi : i < c
  · -- the removed entry stood before the cursor
    refine ⟨(l.take c).eraseIdx i, l.drop c, ?_, List.eraseIdx_sublist _ _,
      List.Sublist.refl _, ?_⟩
    · conv_lhs => rw [← List.take_append_drop c l]
      rw [List.eraseIdx_append_of_lt_length (by omega)]
    · rw [if_pos hi, List.length_eraseIdx_of_lt (by omega), htake]
  · refine ⟨l.take c, (l.drop c).eraseIdx (i - c), ?_, List.Sublist.refl _,
      List.eraseIdx_sublist _ _, ?_⟩
    · conv_lhs => rw [← List.take_append_drop c l]
      rw [List.eraseIdx_append_of_length_le (by omega), htake]
    · rw [if_neg hi, htake]

theorem removesAround_pickFirst (p : α → Bool) (n : ℕ) (l : List α) (c : ℕ) :
    RemovesAround l c (pickFirst p n l).2 (pickFirst p n (l.take c)).2.length := by
  refine ⟨(pickFirst p n (l.take c)).2,
    (pickFirst p (n - (pickFirst p n (l.take c)).1.length) (l.drop c)).2, ?_,
    pickFirst_snd_sublist p _ _, pickFirst_snd_sublist p _ _, rfl⟩
  conv_lhs => rw [← List.take_append_drop c l]
  rw [pickFirst_append]

/-! ## Inserting before the first later entry -/

section Insert

variable (p : α → Bool) (a : α)

/-- `let pos = l.iter().position(p).unwrap_or(l.len()); l.insert(pos, a)`. -/
def insertBefore (l : List α) : List α := l.insertIdx (l.findIdx p) a

@[simp] theorem insertBefore_nil : insertBefore p a [] = [a] := rfl

theorem insertBefore_cons (b : α) (l : List α) :
    insertBefore p a (b :: l) = if p b then a :: b :: l else b :: insertBefore p a l := by
  unfold insertBefore
  cases hb : p b with
  | true => rw [List.findIdx_cons, hb, cond_true, List.insertIdx_zero, if_pos rfl]
  | false =>
    rw [List.findIdx_cons, hb, cond_false, List.insertIdx_succ_cons, if_neg Bool.false_ne_true]

theorem perm_insertBefore (l : List α) : insertBefore p a l ~ a :: l :=
  List.perm_insertIdx a l (List.findIdx_le_length)

/-- Inserting `a` before the first entry of a greater key keeps a list sorted by the key; an
entry of the same key as `a` stays before it. -/
theorem pairwise_insertBefore {β : Type*} [LinearOrder β] (f : α → β) {l : List α}
    (hl : l.Pairwise (fun x y => f x ≤ f y)) :
    (insertBefore (fun b => decide (f a < f b)) a l).Pairwise (fun x y => f x ≤ f y) := by
  induction l with
  | nil => exact List.pairwise_singleton _ a
  | cons b l ih =>
    obtain ⟨hb, hl⟩ := List.pairwise_cons.mp hl
    rw [insertBefore_cons]
    by_cases hab : f a < f b
    · -- `a` goes first, and `b` bounds everything after it
      rw [if_pos (decide_eq_true hab)]
      refine List.pairwise_cons.mpr ⟨fun x hx => ?_, List.pairwise_cons.mpr ⟨hb, hl⟩⟩
      rcases List.mem_cons.mp hx with rfl | hx
      · exact hab.le
      · exact hab.le.trans (hb x hx)
    · rw [if_neg (by simpa using hab)]
      refine List.pairwise_cons.mpr ⟨fun x hx => ?_, ih hl⟩
      rcases List.mem_cons.mp ((perm_insertBefore _ a l).mem_iff.mp hx) with rfl | hx
      · exact not_lt.mp hab
      · exact hb x hx

end Insert

end Positions
