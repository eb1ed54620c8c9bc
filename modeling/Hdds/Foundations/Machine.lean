import Mathlib.Data.List.Forall2

/-! # Deterministic machines driven by events

A component that reacts to a sequence of events is a step function
`step : σ → ε → σ × List ω`: the next state and the outputs emitted on the way. `run` feeds it
a finite list of events and collects every output in order.

* `run_append` splits a run at any point.
* `run_invariant` lifts a one-step preservation lemma to every run; `run_outputs` does the same
  for a property every output of one step has, given an invariant of the state.
* `run_related` is the two-run form: two machines fed related events from related states stay
  related and emit the same outputs up to a view of each. Non-interference statements (what
  one input cannot change) are instances of it.
-/

namespace Machine
set_option autoImplicit false

variable {σ ε ω : Type*}

/-- Run `step` over `events` from `s`, keeping the outputs in emission order. -/
def run (step : σ → ε → σ × List ω) : σ → List ε → σ × List ω
  | s, [] => (s, [])
  | s, e :: es =>
    let now := step s e
    let later := run step now.1 es
    (later.1, now.2 ++ later.2)

@[simp] theorem run_nil (step : σ → ε → σ × List ω) (s : σ) : run step s [] = (s, []) := rfl

@[simp] theorem run_cons (step : σ → ε → σ × List ω) (s : σ) (e : ε) (es : List ε) :
    run step s (e :: es) =
      ((run step (step s e).1 es).1, (step s e).2 ++ (run step (step s e).1 es).2) := rfl

theorem run_append (step : σ → ε → σ × List ω) (s : σ) (es es' : List ε) :
    run step s (es ++ es') =
      ((run step (run step s es).1 es').1,
        (run step s es).2 ++ (run step (run step s es).1 es').2) := by
  induction es generalizing s with
  | nil => simp
  | cons e es ih => simp [ih, List.append_assoc]

section Invariant

variable (step : σ → ε → σ × List ω) (inv : σ → Prop)

theorem run_invariant (preserves : ∀ s e, inv s → inv (step s e).1) (s : σ) (es : List ε)
    (h : inv s) : inv (run step s es).1 := by
  induction es generalizing s with
  | nil => exact h
  | cons e es ih => exact ih (step s e).1 (preserves s e h)

/-- `run_invariant` for runs whose events all satisfy `P`. -/
theorem run_invariant_on (P : ε → Prop) (preserves : ∀ s e, P e → inv s → inv (step s e).1)
    (s : σ) (es : List ε) (hes : ∀ e ∈ es, P e) (h : inv s) : inv (run step s es).1 := by
  induction es generalizing s with
  | nil => exact h
  | cons e es ih =>
    exact ih (step s e).1 (fun e he => hes e (by simp [he])) (preserves s e (hes e (by simp)) h)

theorem run_outputs (ok : ω → Prop) (preserves : ∀ s e, inv s → inv (step s e).1)
    (emits : ∀ s e, inv s → ∀ o ∈ (step s e).2, ok o) (s : σ) (es : List ε) (h : inv s) :
    ∀ o ∈ (run step s es).2, ok o := by
  induction es generalizing s with
  | nil => simp
  | cons e es ih =>
    intro o ho
    rcases List.mem_append.mp ho with hnow | hlater
    · exact emits s e h o hnow
    · exact ih (step s e).1 (preserves s e h) o hlater

end Invariant

section Related

variable {τ ε' ω' γ : Type*}

theorem run_related (step₁ : σ → ε → σ × List ω) (step₂ : τ → ε' → τ × List ω')
    (R : σ → τ → Prop) (E : ε → ε' → Prop) (f : ω → γ) (g : ω' → γ)
    (hstep : ∀ s t e e', R s t → E e e' →
      R (step₁ s e).1 (step₂ t e').1 ∧ (step₁ s e).2.map f = (step₂ t e').2.map g)
    {es : List ε} {es' : List ε'} (hes : List.Forall₂ E es es') (s : σ) (t : τ) (h : R s t) :
    R (run step₁ s es).1 (run step₂ t es').1 ∧
      (run step₁ s es).2.map f = (run step₂ t es').2.map g := by
  induction hes generalizing s t with
  | nil => exact ⟨h, rfl⟩
  | cons he _ ih =>
    obtain ⟨hR, hout⟩ := hstep _ _ _ _ h he
    obtain ⟨hR', hout'⟩ := ih _ _ hR
    refine ⟨hR', ?_⟩
    simp only [run_cons, List.map_append, hout, hout']

/-- Event lists that agree under a view, as the relation `run_related` takes. -/
theorem forall₂_of_map_eq (v : ε → γ) {es es' : List ε} (h : es.map v = es'.map v) :
    List.Forall₂ (fun e e' => v e = v e') es es' := by
  have hmap : List.Forall₂ Eq (es.map v) (es'.map v) := List.forall₂_eq_eq_eq ▸ h
  simpa [List.forall₂_map_left_iff, List.forall₂_map_right_iff] using hmap

end Related

end Machine
