import Mathlib

/-! # Self-delimiting codes and their sequences

An encoder `f : α → ℕ → Except ε (List UInt8)` writes a value into a buffer of the given
capacity and returns the bytes it wrote; a decoder `g : List UInt8 → Except ε (α × ℕ)` reads a
value from the start of a byte string and returns how many bytes it used.

* `Exact f e x b`: `f` writes exactly `b` for `x` when the buffer has room for it, and fails
  with `e` otherwise. `encodeAll_exact` and `Exact.pair` carry it to sequences and pairs.
* `decodeN_flatten` and `decodePair_append`: a decoder that reads back each encoding whatever
  follows it reads back their concatenation the same way.
-/

namespace Codec
set_option autoImplicit false

variable {α β ε : Type}

/-- Encode the values one after the other, each into what the ones before left of the
capacity. -/
def encodeAll (f : α → ℕ → Except ε (List UInt8)) : List α → ℕ → Except ε (List UInt8)
  | [], _ => .ok []
  | x :: xs, cap => do
    let bytes ← f x cap
    let rest ← encodeAll f xs (cap - bytes.length)
    pure (bytes ++ rest)

/-- Decode `n` values one after the other. -/
def decodeN (g : List UInt8 → Except ε (α × ℕ)) :
    (n : ℕ) → List UInt8 → Except ε ({l : List α // l.length = n} × ℕ)
  | 0, _ => .ok (⟨[], rfl⟩, 0)
  | n + 1, src => do
    let (x, used) ← g src
    let (xs, rest) ← decodeN g n (src.drop used)
    pure (⟨x :: xs.1, by simp [xs.2]⟩, used + rest)

/-- Encode a key, then its value. -/
def encodePair (fa : α → ℕ → Except ε (List UInt8)) (fb : β → ℕ → Except ε (List UInt8))
    (p : α × β) (cap : ℕ) : Except ε (List UInt8) := do
  let first ← fa p.1 cap
  let second ← fb p.2 (cap - first.length)
  pure (first ++ second)

/-- Decode a key, then its value. -/
def decodePair (ga : List UInt8 → Except ε (α × ℕ)) (gb : List UInt8 → Except ε (β × ℕ))
    (src : List UInt8) : Except ε ((α × β) × ℕ) := do
  let (a, used) ← ga src
  let (b, used') ← gb (src.drop used)
  pure ((a, b), used + used')

/-! ## What a successful encoder wrote -/

theorem encodeAll_eq_ok {f : α → ℕ → Except ε (List UInt8)} {l : List α} {cap : ℕ}
    {bytes : List UInt8} (h : encodeAll f l cap = .ok bytes) :
    ∃ bs : List (List UInt8), bytes = bs.flatten ∧
      List.Forall₂ (fun x b => ∃ c, f x c = .ok b) l bs := by
  induction l generalizing cap bytes with
  | nil =>
    cases h
    exact ⟨[], rfl, .nil⟩
  | cons x xs ih =>
    rw [encodeAll] at h
    cases hx : f x cap with
    | error e => simp [hx, bind, Except.bind] at h
    | ok b =>
      cases hrest : encodeAll f xs (cap - b.length) with
      | error e => simp [hx, hrest, bind, Except.bind] at h
      | ok rest =>
        simp only [hx, hrest, bind, Except.bind, pure, Except.pure, Except.ok.injEq] at h
        obtain ⟨bs, rfl, hbs⟩ := ih hrest
        exact ⟨b :: bs, by simp [← h], .cons ⟨cap, hx⟩ hbs⟩

theorem encodePair_eq_ok {fa : α → ℕ → Except ε (List UInt8)} {fb : β → ℕ → Except ε (List UInt8)}
    {p : α × β} {cap : ℕ} {bytes : List UInt8} (h : encodePair fa fb p cap = .ok bytes) :
    ∃ ba bb, bytes = ba ++ bb ∧ (∃ c, fa p.1 c = .ok ba) ∧ ∃ c, fb p.2 c = .ok bb := by
  rw [encodePair] at h
  cases ha : fa p.1 cap with
  | error e => simp [ha, bind, Except.bind] at h
  | ok ba =>
    cases hb : fb p.2 (cap - ba.length) with
    | error e => simp [ha, hb, bind, Except.bind] at h
    | ok bb =>
      simp only [ha, hb, bind, Except.bind, pure, Except.pure, Except.ok.injEq] at h
      exact ⟨ba, bb, h.symm, ⟨cap, ha⟩, ⟨_, hb⟩⟩

/-- Every encoding of a sequence takes at least `m` bytes: the sequence takes `m` per value. -/
theorem length_mul_le_length_flatten {l : List α} {bs : List (List UInt8)} {m : ℕ}
    (h : List.Forall₂ (fun _ b => m ≤ b.length) l bs) : l.length * m ≤ bs.flatten.length := by
  induction h with
  | nil => simp
  | @cons x b xs bs hb _ ih =>
    rw [List.length_cons, List.flatten_cons, List.length_append, Nat.succ_mul]
    omega

theorem length_flatten_of_forall₂ {l : List α} {bs : List (List UInt8)} {s : α → ℕ}
    (h : List.Forall₂ (fun x b => b.length = s x) l bs) : bs.flatten.length = (l.map s).sum := by
  induction h with
  | nil => rfl
  | @cons x b xs bs hb _ ih => simp [hb, ih]

/-! ## Relating values to their encodings -/

theorem forall₂_and_of_forall_mem {R : α → β → Prop} {P : α → Prop} {l : List α} {bs : List β}
    (hP : ∀ x ∈ l, P x) (h : List.Forall₂ R l bs) : List.Forall₂ (fun x b => P x ∧ R x b) l bs := by
  induction h with
  | nil => exact .nil
  | @cons x b xs bs hx _ ih =>
    exact .cons ⟨hP x (by simp), hx⟩ (ih fun y hy => hP y (by simp [hy]))

theorem exists_forall₂ {R : α → β → Prop} {l : List α} (h : ∀ x ∈ l, ∃ b, R x b) :
    ∃ bs, List.Forall₂ R l bs := by
  induction l with
  | nil => exact ⟨[], .nil⟩
  | cons x xs ih =>
    obtain ⟨b, hb⟩ := h x (by simp)
    obtain ⟨bs, hbs⟩ := ih fun y hy => h y (by simp [hy])
    exact ⟨b :: bs, .cons hb hbs⟩

/-! ## Exact encoders -/

/-- `f` writes exactly `b` for `x` into any buffer with room for it, and fails with `e` in any
smaller one. -/
def Exact (f : α → ℕ → Except ε (List UInt8)) (e : ε) (x : α) (b : List UInt8) : Prop :=
  ∀ cap, f x cap = if cap < b.length then .error e else .ok b

section Exact

variable {f : α → ℕ → Except ε (List UInt8)} {e : ε} {x : α} {b : List UInt8}

theorem Exact.eq_ok (h : Exact f e x b) {cap : ℕ} (hcap : b.length ≤ cap) : f x cap = .ok b := by
  rw [h cap, if_neg (by omega)]

theorem Exact.eq_error (h : Exact f e x b) {cap : ℕ} (hcap : cap < b.length) :
    f x cap = .error e := by
  rw [h cap, if_pos hcap]

/-- What an exact encoder writes is what it always writes, and it fits the buffer. -/
theorem Exact.of_eq_ok (h : Exact f e x b) {cap : ℕ} {b' : List UInt8} (hok : f x cap = .ok b') :
    b' = b ∧ b.length ≤ cap := by
  rw [h cap] at hok
  split at hok
  · cases hok
  · cases hok
    exact ⟨rfl, by omega⟩

end Exact

theorem encodeAll_exact {f : α → ℕ → Except ε (List UInt8)} {e : ε} {l : List α}
    {bs : List (List UInt8)} (h : List.Forall₂ (Exact f e) l bs) :
    Exact (encodeAll f) e l bs.flatten := by
  induction h with
  | nil => intro cap; simp [encodeAll]
  | @cons x b xs bs hx _ ih =>
    intro cap
    rw [encodeAll, hx cap]
    by_cases hcap : cap < b.length
    · rw [if_pos hcap, if_pos (by rw [List.flatten_cons, List.length_append]; omega)]
      rfl
    · rw [if_neg hcap]
      show (do let rest ← encodeAll f xs (cap - b.length); pure (b ++ rest)) = _
      rw [ih (cap - b.length)]
      by_cases hrest : cap - b.length < bs.flatten.length
      · rw [if_pos hrest, if_pos (by rw [List.flatten_cons, List.length_append]; omega)]
        rfl
      · rw [if_neg hrest, if_neg (by rw [List.flatten_cons, List.length_append]; omega)]
        rfl

theorem Exact.pair {fa : α → ℕ → Except ε (List UInt8)} {fb : β → ℕ → Except ε (List UInt8)}
    {e : ε} {p : α × β} {ba bb : List UInt8} (ha : Exact fa e p.1 ba) (hb : Exact fb e p.2 bb) :
    Exact (encodePair fa fb) e p (ba ++ bb) := by
  intro cap
  rw [encodePair, ha cap]
  by_cases hcap : cap < ba.length
  · rw [if_pos hcap, if_pos (by simp; omega)]
    rfl
  · rw [if_neg hcap]
    show (do let second ← fb p.2 (cap - ba.length); pure (ba ++ second)) = _
    rw [hb (cap - ba.length)]
    by_cases hrest : cap - ba.length < bb.length
    · rw [if_pos hrest, if_pos (by simp; omega)]
      rfl
    · rw [if_neg hrest, if_neg (by simp; omega)]
      rfl

/-- A header of `hdr.length` bytes, checked for first, then an exact encoder. -/
theorem Exact.header {F f : α → ℕ → Except ε (List UInt8)} {e : ε} {x : α} {b : List UInt8}
    (hdr : List UInt8)
    (hF : ∀ cap, F x cap =
      if cap < hdr.length then .error e else (f x (cap - hdr.length)).map (hdr ++ ·))
    (hf : Exact f e x b) : Exact F e x (hdr ++ b) := by
  intro cap
  rw [hF cap]
  by_cases hcap : cap < hdr.length
  · rw [if_pos hcap, if_pos (by simp; omega)]
  · rw [if_neg hcap, hf (cap - hdr.length)]
    by_cases hrest : cap - hdr.length < b.length
    · rw [if_pos hrest, if_pos (by simp; omega)]
      rfl
    · rw [if_neg hrest, if_neg (by simp; omega)]
      rfl

/-! ## Fallible maps -/

theorem ok_bind {γ δ : Type} (a : γ) (f : γ → Except ε δ) : (Except.ok a >>= f) = f a :=
  rfl

theorem error_bind {γ δ : Type} (e : ε) (f : γ → Except ε δ) :
    (Except.error e >>= f) = .error e :=
  rfl

theorem map_ok {γ δ : Type} (f : γ → δ) (a : γ) :
    (Except.ok a : Except ε γ).map f = .ok (f a) :=
  rfl

theorem map_error {γ δ : Type} (f : γ → δ) (e : ε) :
    (Except.error e : Except ε γ).map f = .error e :=
  rfl

/-- A bind in `Except` that succeeds ran both of its parts with success. -/
theorem bind_eq_ok {γ δ : Type} {x : Except ε γ} {f : γ → Except ε δ} {b : δ}
    (h : x >>= f = .ok b) : ∃ a, x = .ok a ∧ f a = .ok b := by
  cases x with
  | error e => cases h
  | ok a => exact ⟨a, rfl, h⟩

/-- `mapM` in `Except` of a function that succeeds on every element. -/
theorem mapM_eq_ok_map {f : α → Except ε β} {g : α → β} :
    ∀ {l : List α}, (∀ x ∈ l, f x = .ok (g x)) → l.mapM f = .ok (l.map g)
  | [], _ => rfl
  | x :: l, h => by
    rw [List.mapM_cons, h x List.mem_cons_self,
      mapM_eq_ok_map fun y hy => h y (List.mem_cons_of_mem x hy)]
    rfl

/-! ## Reading back -/

/-- `g` reads `x` back from `b`, whatever follows it. -/
def ReadsBack (g : List UInt8 → Except ε (α × ℕ)) (x : α) (b : List UInt8) : Prop :=
  ∀ rest, g (b ++ rest) = .ok (x, b.length)

theorem decodeN_flatten {g : List UInt8 → Except ε (α × ℕ)} {l : List α}
    {bs : List (List UInt8)} (h : List.Forall₂ (ReadsBack g) l bs) (rest : List UInt8) :
    decodeN g l.length (bs.flatten ++ rest) = .ok (⟨l, rfl⟩, bs.flatten.length) := by
  induction h generalizing rest with
  | nil => rfl
  | @cons x b xs bs hx _ ih =>
    show decodeN g (xs.length + 1) _ = _
    rw [List.flatten_cons, List.append_assoc, decodeN]
    have hdrop : (b ++ (bs.flatten ++ rest)).drop b.length = bs.flatten ++ rest := by simp
    simp only [hx (bs.flatten ++ rest), bind, Except.bind, hdrop, ih rest]
    simp [pure, Except.pure]

theorem decodePair_append {ga : List UInt8 → Except ε (α × ℕ)}
    {gb : List UInt8 → Except ε (β × ℕ)} {p : α × β} {ba bb : List UInt8}
    (ha : ReadsBack ga p.1 ba) (hb : ReadsBack gb p.2 bb) :
    ReadsBack (decodePair ga gb) p (ba ++ bb) := by
  intro rest
  have hdrop : (ba ++ (bb ++ rest)).drop ba.length = bb ++ rest := by simp
  rw [List.append_assoc, decodePair]
  simp only [ha (bb ++ rest), bind, Except.bind, hdrop, hb rest]
  simp [pure, Except.pure]

end Codec
