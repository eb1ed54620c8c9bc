import Mathlib.Data.List.Count
import Mathlib.Data.List.TakeDrop

/-! # Reading a byte stream

`std::io::Read` as its callers see it: one `read` into a buffer of a given length gives back the
bytes it wrote, or an error of some kind; `WouldBlock` and `Interrupted` are the two errors a
non-blocking caller comes back from. A `Reader` is any such source that cannot be interrupted
forever. A script is the source that hands out a fixed list of chunks and errors, a chunk at most
a buffer at a time, and says `WouldBlock` once it is used up.

* `Script.bytes_of_read_ok`, `Script.bytes_of_read_error`: what a read takes from a script is a
  prefix of the bytes still in it, and an error takes none.
* `writeAt` is the write of a read into a slice of a buffer, `resize` is `Vec::resize`.
-/

namespace Reading
set_option autoImplicit false

/-- `std::io::ErrorKind`, as far as a reader's caller tells kinds apart. -/
inductive ErrorKind
  | wouldBlock
  | interrupted
  | unexpectedEof
  | invalidData
  | other
  deriving DecidableEq, Repr

/-- `std::io::Error`: a kind and a message, empty for an error made from its kind alone. -/
structure ReadError where
  kind : ErrorKind
  message : String
  deriving DecidableEq, Repr

/-- A source with the contract of `Read::read`: a read into a buffer of length `len` writes at
most `len` bytes. `interrupts` bounds how often the source can say `Interrupted` in a row, so
that a caller that retries on it stops. -/
structure Reader (ρ : Type) where
  read : ρ → ℕ → Except ReadError (List UInt8) × ρ
  read_le : ∀ r len bytes, (read r len).1 = .ok bytes → bytes.length ≤ len
  interrupts : ρ → ℕ
  interrupts_lt : ∀ r len e, (read r len).1 = .error e → e.kind = .interrupted →
    interrupts (read r len).2 < interrupts r

/-! ## Buffers -/

section Buffers

variable {α : Type}

/-- `buf[off..off + src.len()].copy_from_slice(src)`. -/
def writeAt (buf : List α) (off : ℕ) (src : List α) : List α :=
  buf.take off ++ src ++ buf.drop (off + src.length)

/-- `Vec::resize(len, value)`. -/
def resize (buf : List α) (len : ℕ) (value : α) : List α :=
  buf.take len ++ List.replicate (len - buf.length) value

theorem length_writeAt {buf : List α} {off : ℕ} {src : List α}
    (h : off + src.length ≤ buf.length) : (writeAt buf off src).length = buf.length := by
  simp only [writeAt, List.length_append, List.length_take, List.length_drop]
  omega

@[simp] theorem length_resize (buf : List α) (len : ℕ) (value : α) :
    (resize buf len value).length = len := by
  simp only [resize, List.length_append, List.length_take, List.length_replicate]
  omega

/-- After the write, the buffer up to the end of the slice is what stood before it and `src`. -/
theorem take_writeAt {buf : List α} {off : ℕ} (src : List α) (h : off ≤ buf.length) :
    (writeAt buf off src).take (off + src.length) = buf.take off ++ src := by
  have hlen : (buf.take off ++ src).length = off + src.length := by
    simp only [List.length_append, List.length_take]
    omega
  rw [writeAt, List.append_assoc, ← List.append_assoc (buf.take off), ← hlen,
    List.take_left' rfl]

end Buffers

/-! ## Scripted sources -/

/-- One answer of a scripted source: bytes, or one of the two errors a non-blocking caller comes
back from. -/
inductive Event
  | data (bytes : List UInt8)
  | wouldBlock
  | interrupted
  deriving DecidableEq, Repr

namespace Script

/-- The bytes a script still holds, in order. -/
def bytes : List Event → List UInt8
  | [] => []
  | .data chunk :: rest => chunk ++ bytes rest
  | _ :: rest => bytes rest

/-- Every chunk of the script holds a byte: a read that gets none means the end of the stream. -/
def Nonempty (s : List Event) : Prop :=
  ∀ chunk, Event.data chunk ∈ s → chunk ≠ []

/-- One `read` of at most `len` bytes: the next chunk, or as much of it as fits, or the next
error; a used-up script says `WouldBlock`. -/
def read : List Event → ℕ → Except ReadError (List UInt8) × List Event
  | [], _ => (.error ⟨.wouldBlock, ""⟩, [])
  | .data chunk :: rest, len =>
    if chunk.length ≤ len then (.ok chunk, rest)
    else (.ok (chunk.take len), .data (chunk.drop len) :: rest)
  | .wouldBlock :: rest, _ => (.error ⟨.wouldBlock, ""⟩, rest)
  | .interrupted :: rest, _ => (.error ⟨.interrupted, ""⟩, rest)

theorem read_le (s : List Event) (len : ℕ) (chunk : List UInt8)
    (h : (read s len).1 = .ok chunk) : chunk.length ≤ len := by
  match s with
  | [] => simp [read] at h
  | .data c :: rest =>
    simp only [read] at h
    split at h
    · cases h
      assumption
    · cases h
      simp only [List.length_take]
      omega
  | .wouldBlock :: rest => simp [read] at h
  | .interrupted :: rest => simp [read] at h

theorem count_read_interrupted (s : List Event) (len : ℕ) (e : ReadError)
    (h : (read s len).1 = .error e) (hkind : e.kind = .interrupted) :
    (read s len).2.count .interrupted < s.count .interrupted := by
  match s with
  | [] =>
    simp only [read, Except.error.injEq] at h
    simp [← h] at hkind
  | .data c :: rest =>
    simp only [read] at h
    split at h <;> cases h
  | .wouldBlock :: rest =>
    simp only [read, Except.error.injEq] at h
    simp [← h] at hkind
  | .interrupted :: rest => simp [read]

/-- A script as a `Read`. -/
def reader : Reader (List Event) where
  read := read
  read_le := read_le
  interrupts := fun s => s.count .interrupted
  interrupts_lt := count_read_interrupted

/-- A read that gives bytes takes them from the front of the script. -/
theorem bytes_of_read_ok {s s' : List Event} {len : ℕ} {chunk : List UInt8}
    (h : read s len = (.ok chunk, s')) : bytes s = chunk ++ bytes s' := by
  match s with
  | [] => simp [read] at h
  | .data c :: rest =>
    simp only [read] at h
    split at h
    · obtain ⟨h₁, rfl⟩ := Prod.mk.inj h
      cases h₁
      rfl
    · obtain ⟨h₁, rfl⟩ := Prod.mk.inj h
      cases h₁
      rw [bytes, bytes, ← List.append_assoc, List.take_append_drop]
  | .wouldBlock :: rest => simp [read] at h
  | .interrupted :: rest => simp [read] at h

/-- A read that fails takes no bytes, and it fails with `WouldBlock` or `Interrupted`. -/
theorem bytes_of_read_error {s s' : List Event} {len : ℕ} {e : ReadError}
    (h : read s len = (.error e, s')) :
    bytes s' = bytes s ∧ (e.kind = .wouldBlock ∨ e.kind = .interrupted) := by
  match s with
  | [] =>
    obtain ⟨h₁, rfl⟩ := Prod.mk.inj h
    cases h₁
    exact ⟨rfl, .inl rfl⟩
  | .data c :: rest =>
    simp only [read] at h
    split at h <;> simp at h
  | .wouldBlock :: rest =>
    obtain ⟨h₁, rfl⟩ := Prod.mk.inj h
    cases h₁
    exact ⟨rfl, .inl rfl⟩
  | .interrupted :: rest =>
    obtain ⟨h₁, rfl⟩ := Prod.mk.inj h
    cases h₁
    exact ⟨rfl, .inr rfl⟩

/-- Into a buffer of at least one byte, a script of non-empty chunks gives at least one byte,
and what is left of it has non-empty chunks too. -/
theorem read_ok_ne_nil {s s' : List Event} {len : ℕ} {chunk : List UInt8} (hs : Nonempty s)
    (hlen : 0 < len) (h : read s len = (.ok chunk, s')) : chunk ≠ [] ∧ Nonempty s' := by
  match s with
  | [] => simp [read] at h
  | .data c :: rest =>
    have hc : c ≠ [] := hs c (by simp)
    have hrest : Nonempty rest := fun c' hc' => hs c' (by simp [hc'])
    simp only [read] at h
    split at h
    · obtain ⟨h₁, rfl⟩ := Prod.mk.inj h
      cases h₁
      exact ⟨hc, hrest⟩
    · obtain ⟨h₁, rfl⟩ := Prod.mk.inj h
      cases h₁
      refine ⟨by simp [List.take_eq_nil_iff, hc]; omega, ?_⟩
      intro c' hc'
      rcases List.mem_cons.1 hc' with heq | hmem
      · cases heq
        simp only [ne_eq, List.drop_eq_nil_iff]
        omega
      · exact hrest c' hmem
  | .wouldBlock :: rest => simp [read] at h
  | .interrupted :: rest => simp [read] at h

theorem nonempty_read_error {s s' : List Event} {len : ℕ} {e : ReadError} (hs : Nonempty s)
    (h : read s len = (.error e, s')) : Nonempty s' := by
  match s with
  | [] =>
    obtain ⟨-, rfl⟩ := Prod.mk.inj h
    exact hs
  | .data c :: rest =>
    simp only [read] at h
    split at h <;> simp at h
  | .wouldBlock :: rest =>
    obtain ⟨-, rfl⟩ := Prod.mk.inj h
    exact fun c hc => hs c (List.mem_cons_of_mem _ hc)
  | .interrupted :: rest =>
    obtain ⟨-, rfl⟩ := Prod.mk.inj h
    exact fun c hc => hs c (List.mem_cons_of_mem _ hc)

/-- A read never lengthens the script, and a failed read of a script that is not used up
shortens it. -/
theorem length_read_le {s s' : List Event} {len : ℕ} {x : Except ReadError (List UInt8)}
    (h : read s len = (x, s')) : s'.length ≤ s.length := by
  match s with
  | [] =>
    obtain ⟨-, rfl⟩ := Prod.mk.inj h
    exact Nat.le_refl _
  | .data c :: rest =>
    simp only [read] at h
    split at h <;> obtain ⟨-, rfl⟩ := Prod.mk.inj h <;> simp
  | .wouldBlock :: rest =>
    obtain ⟨-, rfl⟩ := Prod.mk.inj h
    simp
  | .interrupted :: rest =>
    obtain ⟨-, rfl⟩ := Prod.mk.inj h
    simp

theorem length_read_error {s s' : List Event} {len : ℕ} {e : ReadError}
    (h : read s len = (.error e, s')) : s = [] ∨ s'.length < s.length := by
  match s with
  | [] => exact .inl rfl
  | .data c :: rest =>
    simp only [read] at h
    split at h <;> simp at h
  | .wouldBlock :: rest =>
    obtain ⟨-, rfl⟩ := Prod.mk.inj h
    simp
  | .interrupted :: rest =>
    obtain ⟨-, rfl⟩ := Prod.mk.inj h
    simp

end Script

end Reading
