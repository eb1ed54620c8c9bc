import Mathlib.Data.List.Perm.Basic

/-! # Max-heaps by their contract

A binary heap is modelled by the list of its elements, its backing vector, together with any
`push` and `pop` that keep the elements and, for `PopsMax`, pop a greatest one under the element
order `cmp`. Nothing is said about the order among equal elements, which a binary heap leaves
open. `drainBy` is the loop that pops a whole heap, collecting the elements a predicate selects
and pushing the others onto a second heap. When the selected elements are strictly ordered,
each `pop` of a selected element returns the first of them (`pop_eq_head`), so they are
drained in that order (`drainBy_fst`). `selection` is the simplest heap meeting the contract.
-/

set_option autoImplicit false

/-- `push` and `pop` of a heap of `α`, as functions on the list of its elements. -/
structure HeapOps (α : Type*) where
  push : α → List α → List α
  pop : List α → Option (α × List α)
  perm_push : ∀ a h, (push a h).Perm (a :: h)
  pop_eq_none : ∀ h, pop h = none ↔ h = []
  perm_pop : ∀ h a h', pop h = some (a, h') → h.Perm (a :: h')

namespace HeapOps

variable {α : Type*} (H : HeapOps α)

/-- `pop` returns an element no remaining element exceeds under `cmp`. -/
def PopsMax (cmp : α → α → Ordering) : Prop :=
  ∀ h a h', H.pop h = some (a, h') → ∀ b ∈ h', cmp b a ≠ .gt

theorem length_lt_of_pop {h h' : List α} {a : α} (hp : H.pop h = some (a, h')) :
    h'.length < h.length := by
  have := (H.perm_pop h a h' hp).length_eq
  simp only [List.length_cons] at this
  omega

/-- Pop every element of `h`: those `q` selects are appended to `taken`, the others pushed
onto `rest`. -/
def drainBy (q : α → Bool) (h taken rest : List α) : List α × List α :=
  match hp : H.pop h with
  | none => (taken, rest)
  | some (a, h') =>
    have := H.length_lt_of_pop hp
    if q a then drainBy q h' (taken ++ [a]) rest else drainBy q h' taken (H.push a rest)
termination_by h.length

theorem drainBy_of_pop_none {q : α → Bool} {h : List α} (taken rest : List α)
    (hp : H.pop h = none) : H.drainBy q h taken rest = (taken, rest) := by
  rw [drainBy]
  split
  · rfl
  · rename_i hp'
    rw [hp] at hp'
    cases hp'

theorem drainBy_of_pop_some {q : α → Bool} {h h' : List α} {a : α} (taken rest : List α)
    (hp : H.pop h = some (a, h')) :
    H.drainBy q h taken rest =
      if q a then H.drainBy q h' (taken ++ [a]) rest else H.drainBy q h' taken (H.push a rest) := by
  rw [drainBy]
  split
  · rename_i hp'
    rw [hp] at hp'
    cases hp'
  · rename_i hp'
    rw [hp] at hp'
    cases hp'
    rfl

/-- The drain keeps every element: the selected ones follow `taken`, the others join `rest`. -/
theorem drainBy_perm (q : α → Bool) (h taken rest : List α) :
    ∃ t, (H.drainBy q h taken rest).1 = taken ++ t ∧ t.Perm (h.filter q) ∧
      (H.drainBy q h taken rest).2.Perm (h.filter (fun a => !q a) ++ rest) := by
  induction h using (measure List.length).wf.induction generalizing taken rest with
  | h h ih =>
    cases hp : H.pop h with
    | none =>
      have hnil : h = [] := (H.pop_eq_none h).1 hp
      subst hnil
      exact ⟨[], by simp [H.drainBy_of_pop_none taken rest hp]⟩
    | some r =>
      obtain ⟨a, h'⟩ := r
      have hperm := H.perm_pop h a h' hp
      have hlt := H.length_lt_of_pop hp
      rw [H.drainBy_of_pop_some taken rest hp]
      by_cases hq : q a
      · obtain ⟨t, h1, h2, h3⟩ := ih h' hlt (taken ++ [a]) rest
        have hsel : (a :: h'.filter q).Perm (h.filter q) := by
          simpa [List.filter_cons_of_pos hq] using (hperm.filter q).symm
        have hrej : (h'.filter fun a => !q a).Perm (h.filter fun a => !q a) := by
          simpa [hq] using (hperm.filter fun a => !q a).symm
        refine ⟨a :: t, by simp [hq, h1], (h2.cons a).trans hsel, ?_⟩
        simp only [hq, if_true]
        exact h3.trans (hrej.append_right rest)
      · obtain ⟨t, h1, h2, h3⟩ := ih h' hlt taken (H.push a rest)
        have hsel : (h'.filter q).Perm (h.filter q) := by
          simpa [hq] using (hperm.filter q).symm
        -- the rejected `a` moves from the heap into `rest`
        have hrej : (a :: h'.filter fun a => !q a).Perm (h.filter fun a => !q a) := by
          simpa [hq] using (hperm.filter fun a => !q a).symm
        refine ⟨t, by simp [hq, h1], h2.trans hsel, ?_⟩
        simp only [hq, Bool.false_eq_true, if_false]
        exact h3.trans (((H.perm_push a rest).append_left _).trans
          (List.perm_middle.trans (hrej.append_right rest)))

section Sorted

variable {H} {cmp : α → α → Ordering} (hmax : H.PopsMax cmp) (q : α → Bool)
include hmax

/-- Popping a selected element from a heap whose selected elements are `x :: l`, strictly
decreasing under `cmp`, returns `x`. -/
theorem pop_eq_head {h h' : List α} {a x : α} {l : List α} (hp : H.pop h = some (a, h'))
    (hq : q a = true) (hsel : (h.filter q).Perm (x :: l))
    (hsorted : (x :: l).Pairwise fun a b => cmp a b = .gt) :
    a = x ∧ (h'.filter q).Perm l := by
  have hperm := H.perm_pop h a h' hp
  have hfilter : (h.filter q).Perm (a :: h'.filter q) := by
    simpa [List.filter_cons_of_pos hq] using hperm.filter q
  have hax : a = x := by
    by_contra hne
    have hal : a ∈ l := by
      have : a ∈ x :: l := hsel.mem_iff.1 (hfilter.mem_iff.2 (List.mem_cons_self ..))
      simpa [hne] using this
    have hxh : x ∈ h' := by
      have hx : x ∈ a :: h' :=
        hperm.mem_iff.1 (List.mem_of_mem_filter (hsel.mem_iff.2 (List.mem_cons_self ..)))
      rcases List.mem_cons.1 hx with hx | hx
      · exact absurd hx.symm hne
      · exact hx
    exact hmax h a h' hp x hxh (List.rel_of_pairwise_cons hsorted hal)
  subst hax
  exact ⟨rfl, (List.perm_cons a).1 (hfilter.symm.trans hsel)⟩

/-- Draining a heap whose selected elements are `l`, strictly decreasing under `cmp`, takes
exactly `l`, in order. -/
theorem drainBy_fst (h taken rest l : List α) (hsel : (h.filter q).Perm l)
    (hsorted : l.Pairwise fun a b => cmp a b = .gt) :
    (H.drainBy q h taken rest).1 = taken ++ l := by
  induction h using (measure List.length).wf.induction generalizing taken rest l with
  | h h ih =>
    cases hp : H.pop h with
    | none =>
      have hnil : h = [] := (H.pop_eq_none h).1 hp
      subst hnil
      rw [H.drainBy_of_pop_none taken rest hp, List.perm_nil.1 hsel.symm, List.append_nil]
    | some r =>
      obtain ⟨a, h'⟩ := r
      have hlt := H.length_lt_of_pop hp
      rw [H.drainBy_of_pop_some taken rest hp]
      by_cases hq : q a
      · -- the popped element is selected, so it is the first of `l`
        obtain ⟨x, l', rfl⟩ : ∃ x l', l = x :: l' := by
          have : a ∈ l := hsel.mem_iff.1 (List.mem_filter.2 ⟨(H.perm_pop h a h' hp).mem_iff.2
            (List.mem_cons_self ..), hq⟩)
          exact List.exists_cons_of_ne_nil (List.ne_nil_of_mem this)
        obtain ⟨rfl, hsel'⟩ := pop_eq_head hmax q hp hq hsel hsorted
        simp only [hq, if_true]
        rw [ih h' hlt _ rest l' hsel' hsorted.of_cons, List.append_assoc, List.singleton_append]
      · have hsel' : (h'.filter q).Perm l := by
          have := (H.perm_pop h a h' hp).filter q
          simp only [List.filter_cons, hq, Bool.false_eq_true, if_false] at this
          exact this.symm.trans hsel
        simp only [hq, Bool.false_eq_true, if_false]
        exact ih h' hlt taken _ l hsel' hsorted

end Sorted

/-! ## A heap by selection -/

section Selection

variable (cmp : α → α → Ordering)

/-- The first greatest of `a :: l` and the others in order: a later element replaces the
candidate only when strictly greater. -/
def selectMax : α → List α → α × List α
  | a, [] => (a, [])
  | a, b :: l =>
    if cmp b a = .gt then
      let r := selectMax b l
      (r.1, a :: r.2)
    else
      let r := selectMax a l
      (r.1, b :: r.2)

theorem selectMax_perm (a : α) (l : List α) :
    (a :: l).Perm ((selectMax cmp a l).1 :: (selectMax cmp a l).2) := by
  induction l generalizing a with
  | nil => rfl
  | cons b l ih =>
    unfold selectMax
    split
    · exact ((ih b).cons a).trans (List.Perm.swap _ _ _)
    · exact (List.Perm.swap b a l).trans (((ih a).cons b).trans (List.Perm.swap _ _ _))

theorem selectMax_max [Std.TransCmp cmp] (a : α) (l : List α) :
    ∀ c ∈ a :: l, cmp c (selectMax cmp a l).1 ≠ .gt := by
  induction l generalizing a with
  | nil =>
    intro c hc
    rw [List.mem_singleton.1 hc, selectMax]
    intro hgt
    have := Std.OrientedCmp.gt_iff_lt.1 hgt
    rw [hgt] at this
    cases this
  | cons b l ih =>
    intro c hc
    unfold selectMax
    split
    · rename_i hba
      -- `b` beats `a`, so `a` is below the maximum of `b :: l`
      have hab : cmp a b ≠ .gt := by
        rw [Std.OrientedCmp.gt_iff_lt.1 hba]
        exact Ordering.noConfusion
      rcases List.mem_cons.1 hc with rfl | hc
      · exact Std.TransCmp.le_trans hab (ih b b (List.mem_cons_self ..))
      · exact ih b c hc
    · rename_i hba
      rcases List.mem_cons.1 hc with rfl | hc
      · exact ih c c (List.mem_cons_self ..)
      rcases List.mem_cons.1 hc with rfl | hc
      · exact Std.TransCmp.le_trans hba (ih a a (List.mem_cons_self ..))
      · exact ih a c (List.mem_cons_of_mem _ hc)

/-- Pop by `selectMax`. -/
def selectPop : List α → Option (α × List α)
  | [] => none
  | a :: h => some (selectMax cmp a h)

theorem perm_selectPop {h h' : List α} {a : α} (hp : selectPop cmp h = some (a, h')) :
    h.Perm (a :: h') := by
  cases h with
  | nil => cases hp
  | cons b h =>
    have e : selectMax cmp b h = (a, h') := Option.some.inj hp
    have := selectMax_perm cmp b h
    rwa [e] at this

/-- A heap that pushes at the front and pops by `selectMax`. -/
def selection : HeapOps α where
  push a h := a :: h
  pop := selectPop cmp
  perm_push _ _ := List.Perm.refl _
  pop_eq_none h := by cases h <;> simp [selectPop]
  perm_pop _ _ _ hp := perm_selectPop cmp hp

theorem popsMax_selection [Std.TransCmp cmp] : (selection cmp).PopsMax cmp := by
  intro h a h' hp b hb
  cases h with
  | nil => cases hp
  | cons c h =>
    have e : selectMax cmp c h = (a, h') := Option.some.inj hp
    have hmax := selectMax_max cmp c h
    have hperm := selectMax_perm cmp c h
    rw [e] at hmax hperm
    exact hmax b (hperm.mem_iff.2 (List.mem_cons_of_mem _ hb))

end Selection

end HeapOps
