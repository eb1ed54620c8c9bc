import Mathlib.Algebra.Order.Group.Defs
import Mathlib.Algebra.BigOperators.Group.List.Basic

/-! # Tag chains

Self-clocked schedulers stamp the jobs of a flow with running tags: each job's tag is the tag
before it plus the job's cost. `IsTagChain tag cost base l` says that the jobs `l`, in order, are
stamped so from `base`.

The last tag is the base plus all the costs (`exists_tag_eq_sum`) and a job stamped after the
last extends the chain (`append_singleton`). With costs that are not negative, each tag is at
least the base plus its own cost (`le_tag`), and taking out a job of least tag leaves a chain
from the base plus that job's cost (`remove_least`).
-/

set_option autoImplicit false

variable {α K : Type*} [AddCommGroup K]

/-- The jobs `l` carry the running tags from `base`. -/
def IsTagChain (tag cost : α → K) : K → List α → Prop
  | _, [] => True
  | base, a :: l => tag a = base + cost a ∧ IsTagChain tag cost (tag a) l

namespace IsTagChain

variable {tag cost : α → K}

@[simp] theorem nil (base : K) : IsTagChain tag cost base [] := trivial

@[simp] theorem cons_iff {base : K} {a : α} {l : List α} :
    IsTagChain tag cost base (a :: l) ↔ tag a = base + cost a ∧ IsTagChain tag cost (tag a) l :=
  Iff.rfl

theorem append_singleton {base : K} {l : List α} (h : IsTagChain tag cost base l) {a : α}
    (ha : tag a = base + (l.map cost).sum + cost a) : IsTagChain tag cost base (l ++ [a]) := by
  induction l generalizing base with
  | nil => simpa using ha
  | cons b l ih =>
    obtain ⟨hb, hl⟩ := h
    refine ⟨hb, ih hl ?_⟩
    rw [ha, hb, List.map_cons, List.sum_cons, ← add_assoc]

theorem exists_tag_eq_sum {base : K} {l : List α} (h : IsTagChain tag cost base l) (hne : l ≠ []) :
    ∃ a ∈ l, tag a = base + (l.map cost).sum := by
  induction l generalizing base with
  | nil => exact absurd rfl hne
  | cons b l ih =>
    obtain ⟨hb, hl⟩ := h
    by_cases hnil : l = []
    · subst hnil
      exact ⟨b, List.mem_cons_self, by simpa using hb⟩
    · obtain ⟨a, ha, hta⟩ := ih hl hnil
      refine ⟨a, List.mem_cons_of_mem _ ha, ?_⟩
      rw [hta, hb, List.map_cons, List.sum_cons, add_assoc]

section Order

variable [LinearOrder K] [IsOrderedAddMonoid K]

theorem le_tag {base : K} {l : List α} (h : IsTagChain tag cost base l)
    (hcost : ∀ x ∈ l, 0 ≤ cost x) : ∀ a ∈ l, base + cost a ≤ tag a := by
  induction l generalizing base with
  | nil => simp
  | cons b l ih =>
    obtain ⟨hb, hl⟩ := h
    have hbase : base ≤ tag b := by
      rw [hb]
      exact le_add_of_nonneg_right (hcost b List.mem_cons_self)
    intro a ha
    rcases List.mem_cons.1 ha with rfl | ha
    · exact hb.ge
    · apply ((add_le_add_iff_right (cost a)).2 hbase).trans
      exact ih hl (fun x hx => hcost x (List.mem_cons_of_mem _ hx)) a ha

/-- Taking out a job of least tag: the jobs before it share its tag, so it costs nothing unless
it is the first, and the rest is a chain from the base plus its cost. -/
theorem remove_least {base : K} {l₁ l₂ : List α} {a : α}
    (h : IsTagChain tag cost base (l₁ ++ a :: l₂)) (hcost : ∀ x ∈ l₁ ++ a :: l₂, 0 ≤ cost x)
    (hleast : ∀ x ∈ l₁, tag a ≤ tag x) : IsTagChain tag cost (base + cost a) (l₁ ++ l₂) := by
  induction l₁ generalizing base with
  | nil =>
    obtain ⟨ha, hl⟩ := h
    rwa [← ha]
  | cons b l₁ ih =>
    obtain ⟨hb, hl⟩ := h
    have hcost' : ∀ x ∈ l₁ ++ a :: l₂, 0 ≤ cost x :=
      fun x hx => hcost x (List.mem_cons_of_mem _ hx)
    have hafter : tag b + cost a ≤ tag a := le_tag hl hcost' a (by simp)
    have hzero : cost a = 0 :=
      le_antisymm ((add_le_iff_nonpos_right (tag b)).1 (hafter.trans (hleast b List.mem_cons_self)))
        (hcost' a (by simp))
    have hrest := ih hl hcost' fun x hx => hleast x (List.mem_cons_of_mem _ hx)
    rw [hzero, add_zero] at hrest ⊢
    exact ⟨hb, hrest⟩

end Order

end IsTagChain
