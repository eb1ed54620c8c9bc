import Mathlib

/-! # Decoders that stay within their input

A cursor decoder reads a byte string from an offset and returns a value with the offset after
it, or fails. One failure `bad` is singled out (the panic of an out-of-range slice, say).
`Stays bad len r` says that the result `r` is not that failure and that a success ends at an
offset within `len`.

`Stays.bind` carries it through a `do` block: each step may start from any offset the steps
before it left within `len`, and `Stays.bind_return` ends the block. `Stays.shift` is a decoder
run on the suffix of the input from an offset within it, whose offsets count from there.

`times g n` runs a decoder `n` times (the `for _ in 0..len { vec.push(..?) }` loop).
`Encodes enc dec x` says that the encoder `enc`, which appends to a buffer, writes an encoding
of `x` that `dec`, started where it begins, reads back as `x` whatever follows it;
`Encodes.foldlM` carries that from the elements of a list to the loop that writes them all
and the loop that reads them back.
-/

namespace Cursor
set_option autoImplicit false

variable {ε α β γ : Type} (bad : ε)

/-- The result is not `bad`, and a success ends at an offset within `len`. -/
def Stays (len : ℕ) (r : Except ε (α × ℕ)) : Prop :=
  r ≠ .error bad ∧ ∀ a o, r = .ok (a, o) → o ≤ len

variable {bad}

theorem stays_ok {len o : ℕ} (a : α) (h : o ≤ len) : Stays bad len (.ok (a, o)) := by
  refine ⟨nofun, ?_⟩
  intro a' o' heq
  cases heq
  exact h

theorem stays_error {len : ℕ} {e : ε} (h : e ≠ bad) :
    Stays bad len (.error e : Except ε (α × ℕ)) := by
  refine ⟨fun heq => h (Except.error.inj heq), ?_⟩
  intro a o heq
  cases heq

theorem Stays.mono {len len' : ℕ} {r : Except ε (α × ℕ)} (h : Stays bad len r)
    (hle : len ≤ len') : Stays bad len' r :=
  ⟨h.1, fun a o heq => (h.2 a o heq).trans hle⟩

theorem Stays.bind {len : ℕ} {r : Except ε (α × ℕ)} {f : α × ℕ → Except ε (β × ℕ)}
    (hr : Stays bad len r) (hf : ∀ a o, o ≤ len → Stays bad len (f (a, o))) :
    Stays bad len (r >>= f) := by
  cases r with
  | error e =>
    have hne : e ≠ bad := fun heq => hr.1 (heq ▸ rfl)
    exact stays_error hne
  | ok x =>
    obtain ⟨a, o⟩ := x
    exact hf a o (hr.2 a o rfl)

/-- A last step that returns a value at the offset the decoder before it left. -/
theorem Stays.bind_return {len : ℕ} {r : Except ε (α × ℕ)} {f : α × ℕ → Except ε (β × ℕ)}
    (hr : Stays bad len r) (hf : ∀ a o, ∃ b, f (a, o) = .ok (b, o)) : Stays bad len (r >>= f) := by
  apply hr.bind
  intro a o ho
  obtain ⟨b, hb⟩ := hf a o
  rw [hb]
  exact stays_ok b ho

/-- A step that returns no offset, such as a check, before a decoder. -/
theorem Stays.bind_value {len : ℕ} {r : Except ε γ} {f : γ → Except ε (β × ℕ)}
    (hr : r ≠ .error bad) (hf : ∀ c, Stays bad len (f c)) : Stays bad len (r >>= f) := by
  cases r with
  | error e =>
    have hne : e ≠ bad := fun heq => hr (heq ▸ rfl)
    exact stays_error hne
  | ok c => exact hf c

theorem Stays.map {len : ℕ} {r : Except ε (α × ℕ)} (f : α → β) (hr : Stays bad len r) :
    Stays bad len (r.map fun x => (f x.1, x.2)) := by
  cases r with
  | error e =>
    have hne : e ≠ bad := fun heq => hr.1 (heq ▸ rfl)
    exact stays_error hne
  | ok x => exact stays_ok _ (hr.2 x.1 x.2 rfl)

/-- A decoder run on the input from `off`: its offsets, shifted by `off`, stay within `len`. -/
theorem Stays.shift {len off : ℕ} {r : Except ε (α × ℕ)} (hr : Stays bad (len - off) r)
    (hoff : off ≤ len) : Stays bad len (r.map fun x => (x.1, off + x.2)) := by
  cases r with
  | error e =>
    have hne : e ≠ bad := fun heq => hr.1 (heq ▸ rfl)
    exact stays_error hne
  | ok x =>
    have hx := hr.2 x.1 x.2 rfl
    exact stays_ok _ (by omega)

/-! ## Repetition -/

/-- The decoder `g` run `n` times from `o`, each run from where the one before stopped. -/
def times (g : ℕ → Except ε (α × ℕ)) : ℕ → ℕ → Except ε (List α × ℕ)
  | 0, o => .ok ([], o)
  | n + 1, o => do
    let (x, o) ← g o
    let (xs, o) ← times g n o
    pure (x :: xs, o)

@[simp] theorem times_zero (g : ℕ → Except ε (α × ℕ)) (o : ℕ) : times g 0 o = .ok ([], o) := rfl

theorem times_succ (g : ℕ → Except ε (α × ℕ)) (n o : ℕ) :
    times g (n + 1) o = (g o >>= fun p => times g n p.2 >>= fun q => pure (p.1 :: q.1, q.2)) := rfl

/-! ## Encoders their decoders read back -/

/-- For any buffer, `enc` appends to it an encoding of `x` that `dec`, started at the end of
the buffer, reads back as `x`, stopping at the end of the encoding, whatever follows it. -/
def Encodes (enc : List β → Except ε (List β)) (dec : List β → ℕ → Except ε (α × ℕ))
    (x : α) : Prop :=
  ∀ buf, ∃ buf', enc buf = .ok buf' ∧ buf <+: buf' ∧
    ∀ rest, dec (buf' ++ rest) buf.length = .ok (x, buf'.length)

/-- Writing nothing is read back as a value the decoder returns without reading. -/
theorem Encodes.pure (x : α) :
    Encodes (fun buf : List β => (.ok buf : Except ε (List β))) (fun _ o => .ok (x, o)) x :=
  fun buf => ⟨buf, rfl, List.prefix_refl buf, fun _ => rfl⟩

/-- A decoder that goes on to build a value from what it read. -/
theorem Encodes.map {enc : List β → Except ε (List β)}
    {dec : List β → ℕ → Except ε (α × ℕ)} {x : α} (f : α → γ) (h : Encodes enc dec x) :
    Encodes enc (fun src o => dec src o >>= fun p => .ok (f p.1, p.2)) (f x) := by
  intro buf
  obtain ⟨buf', he, hp, hd⟩ := h buf
  refine ⟨buf', he, hp, fun rest => ?_⟩
  simp only [hd rest]
  rfl

/-- Two encodings one after the other, the second read by a decoder that may depend on the
first value. -/
theorem Encodes.bind {e₁ e₂ : List β → Except ε (List β)}
    {d₁ : List β → ℕ → Except ε (α × ℕ)} (d₂ : α → List β → ℕ → Except ε (γ × ℕ)) {a : α} {c : γ}
    (h₁ : Encodes e₁ d₁ a) (h₂ : Encodes e₂ (d₂ a) c) :
    Encodes (fun buf => e₁ buf >>= e₂) (fun src o => d₁ src o >>= fun p => d₂ p.1 src p.2) c := by
  intro buf
  obtain ⟨b₁, he₁, hp₁, hd₁⟩ := h₁ buf
  obtain ⟨b₂, he₂, hp₂, hd₂⟩ := h₂ b₁
  refine ⟨b₂, by simp only [he₁]; exact he₂, hp₁.trans hp₂, fun rest => ?_⟩
  -- the first value is read from the second encoding and what follows it
  obtain ⟨t, rfl⟩ := hp₂
  have hfirst : d₁ (b₁ ++ t ++ rest) buf.length = .ok (a, b₁.length) := by
    rw [List.append_assoc]
    exact hd₁ (t ++ rest)
  simp only [hfirst]
  exact hd₂ rest

/-- Writing the elements one after the other is read back by reading as many. -/
theorem Encodes.foldlM {enc : List β → α → Except ε (List β)}
    {dec : List β → ℕ → Except ε (α × ℕ)} {xs : List α}
    (h : ∀ x ∈ xs, Encodes (fun buf => enc buf x) dec x) :
    Encodes (fun buf => xs.foldlM enc buf) (fun src o => times (dec src) xs.length o) xs := by
  induction xs with
  | nil =>
    intro buf
    exact ⟨buf, rfl, List.prefix_refl buf, fun rest => rfl⟩
  | cons x xs ih =>
    -- the first element, then the others, read back as the list they make with it
    have hrest := (ih fun y hy => h y (List.mem_cons_of_mem x hy)).map (x :: ·)
    exact Encodes.bind (fun a src o => times (dec src) xs.length o >>= fun p => .ok (a :: p.1, p.2))
      (h x List.mem_cons_self) hrest

end Cursor
