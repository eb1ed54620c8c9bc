import Mathlib

/-! # String slices as lists of characters

A `&str` is read as the list of its characters. The slice operations used by the code are
defined here with their characterisations:

* `stripPrefix?` / `stripSuffix?` are `strip_prefix` / `strip_suffix`: `some r` exactly when the
  text is `pre ++ r` (resp. `r ++ suf`).
* `find?` is `str::find` for a text pattern: the position of the first occurrence.
* `trim`, `lines` and `isWhitespace` are `str::trim`, `str::lines` and `char::is_whitespace`;
  `utf8Len` is `str::len`, the length in bytes.

Byte offsets of the source become character positions; every slice the code takes starts and
ends next to an ASCII character, where the two agree.

The last section reads membership of a word in a concatenation `A * L` of Mathlib `Language`s
off its first letter, for the `A` a wildcard pattern puts in front: every word, `anyLetter`, or
one given letter.
-/

namespace Text
set_option autoImplicit false

section Generic

variable {α : Type*} [DecidableEq α]

/-- `strip_prefix`. -/
def stripPrefix? (pre l : List α) : Option (List α) :=
  if pre.isPrefixOf l then some (l.drop pre.length) else none

/-- `strip_suffix`. -/
def stripSuffix? (suf l : List α) : Option (List α) :=
  if suf.isSuffixOf l then some (l.take (l.length - suf.length)) else none

theorem stripPrefix?_eq_some {pre l r : List α} : stripPrefix? pre l = some r ↔ l = pre ++ r := by
  unfold stripPrefix?
  constructor
  · intro h
    split at h
    · rename_i hp
      obtain ⟨t, rfl⟩ := List.isPrefixOf_iff_prefix.mp hp
      cases h
      simp
    · cases h
  · rintro rfl
    rw [if_pos (List.isPrefixOf_iff_prefix.mpr (List.prefix_append pre r)), List.drop_left]

theorem stripPrefix?_eq_none {pre l : List α} : stripPrefix? pre l = none ↔ ¬ pre <+: l := by
  unfold stripPrefix?
  rw [← List.isPrefixOf_iff_prefix]
  split <;> simp_all

theorem stripSuffix?_eq_some {suf l r : List α} : stripSuffix? suf l = some r ↔ l = r ++ suf := by
  unfold stripSuffix?
  constructor
  · intro h
    split at h
    · rename_i hs
      obtain ⟨t, rfl⟩ := List.isSuffixOf_iff_suffix.mp hs
      cases h
      simp
    · cases h
  · rintro rfl
    rw [if_pos (List.isSuffixOf_iff_suffix.mpr (List.suffix_append r suf))]
    simp

theorem stripSuffix?_eq_none {suf l : List α} : stripSuffix? suf l = none ↔ ¬ suf <:+ l := by
  unfold stripSuffix?
  rw [← List.isSuffixOf_iff_suffix]
  split <;> simp_all

/-- `str::find` with a text pattern: the position of its first occurrence. -/
def find? (pat : List α) : List α → Option ℕ
  | [] => if pat = [] then some 0 else none
  | c :: cs => if pat.isPrefixOf (c :: cs) then some 0 else (find? pat cs).map (· + 1)

/-- `find?` returns a position where `pat` occurs, and `pat` occurs at no earlier one. -/
theorem find?_eq_some {pat l : List α} {i : ℕ} (h : find? pat l = some i) :
    pat <+: l.drop i ∧ ∀ j < i, ¬ pat <+: l.drop j := by
  induction l generalizing i with
  | nil =>
    simp only [find?] at h
    split at h
    · cases h
      simp_all
    · cases h
  | cons c cs ih =>
    simp only [find?] at h
    split at h
    · rename_i hp
      cases h
      exact ⟨List.isPrefixOf_iff_prefix.mp hp, by simp⟩
    · rename_i hp
      obtain ⟨k, hk, rfl⟩ := Option.map_eq_some_iff.mp h
      obtain ⟨hat, hbefore⟩ := ih hk
      refine ⟨by simpa using hat, fun j hj => ?_⟩
      cases j with
      | zero => simpa [List.isPrefixOf_iff_prefix] using hp
      | succ j => simpa using hbefore j (by omega)

theorem find?_eq_none {pat l : List α} (h : find? pat l = none) :
    ∀ j ≤ l.length, ¬ pat <+: l.drop j := by
  induction l with
  | nil =>
    intro j hj
    simp only [find?] at h
    split at h
    · cases h
    · rename_i hp
      simp only [List.length_nil, Nat.le_zero] at hj
      subst hj
      simpa [List.prefix_nil] using hp
  | cons c cs ih =>
    intro j hj
    simp only [find?] at h
    split at h
    · cases h
    · rename_i hp
      cases j with
      | zero => simpa [List.isPrefixOf_iff_prefix] using hp
      | succ j =>
        simp only [Option.map_eq_none_iff] at h
        simpa using ih h j (by simpa using hj)

end Generic

/-! ## Characters -/

/-- `char::is_whitespace`: the characters with the Unicode `White_Space` property. -/
def isWhitespace (c : Char) : Bool :=
  let n := c.toNat
  (0x09 ≤ n && n ≤ 0x0D) || n == 0x20 || n == 0x85 || n == 0xA0 || n == 0x1680 ||
    (0x2000 ≤ n && n ≤ 0x200A) || n == 0x2028 || n == 0x2029 || n == 0x202F ||
    n == 0x205F || n == 0x3000

/-- `str::trim`. -/
def trim (s : List Char) : List Char := (s.dropWhile isWhitespace).rdropWhile isWhitespace

/-- `str::len`: the length of the UTF-8 encoding. -/
def utf8Len (s : List Char) : ℕ := (s.map Char.utf8Size).sum

/-- Drop one `\r` at the end. -/
def stripCr (s : List Char) : List Char := if s.getLast? = some '\r' then s.dropLast else s

/-- The lines of `str::lines` after the current one, whose characters so far are `cur`
(reversed): a `\n` ends a line, and a final line is kept only if it is not empty. -/
def linesFrom (cur : List Char) : List Char → List (List Char)
  | [] => [cur.reverse]
  | c :: rest =>
    if c = '\n' then stripCr cur.reverse :: (if rest = [] then [] else linesFrom [] rest)
    else linesFrom (c :: cur) rest

/-- `str::lines`: split at `\n` (dropping a `\r` before it); a final `\n` opens no line. -/
def lines (s : List Char) : List (List Char) := if s = [] then [] else linesFrom [] s

example : lines "a\r\nb\n\nc".toList = ["a".toList, "b".toList, [], "c".toList] := by decide
example : lines "a\n".toList = ["a".toList] := by decide

end Text

namespace Language
set_option autoImplicit false

variable {α : Type*} {A L : Language α}

/-- The words of one letter. -/
def anyLetter : Language α :=
  {w | w.length = 1}

theorem nil_mem_mul_iff : [] ∈ A * L ↔ [] ∈ A ∧ [] ∈ L := by
  simp only [Language.mem_mul, List.append_eq_nil_iff]
  constructor
  · rintro ⟨a, ha, b, hb, rfl, rfl⟩
    exact ⟨ha, hb⟩
  · rintro ⟨ha, hb⟩
    exact ⟨[], ha, [], hb, rfl, rfl⟩

/-- A nonempty word is in `⊤ * L` when it is in `L`, or its tail is in `⊤ * L`. -/
theorem cons_mem_top_mul_iff (c : α) (t : List α) :
    c :: t ∈ ⊤ * L ↔ c :: t ∈ L ∨ t ∈ ⊤ * L := by
  simp only [Language.mem_mul]
  constructor
  · rintro ⟨a, -, b, hb, hab⟩
    cases a with
    | nil =>
      rw [List.nil_append] at hab
      exact .inl (hab ▸ hb)
    | cons d a =>
      simp only [List.cons_append, List.cons.injEq] at hab
      exact .inr ⟨a, trivial, b, hb, hab.2⟩
  · rintro (h | ⟨a, -, b, hb, rfl⟩)
    · exact ⟨[], trivial, c :: t, h, rfl⟩
    · exact ⟨c :: a, trivial, b, hb, rfl⟩

theorem cons_mem_length_one_mul_iff (c : α) (t : List α) :
    c :: t ∈ anyLetter * L ↔ t ∈ L := by
  simp only [Language.mem_mul]
  constructor
  · rintro ⟨a, ha, b, hb, hab⟩
    obtain ⟨d, rfl⟩ := List.length_eq_one_iff.1 ha
    simp only [List.singleton_append, List.cons.injEq] at hab
    exact hab.2 ▸ hb
  · intro h
    exact ⟨[c], rfl, t, h, rfl⟩

theorem cons_mem_singleton_mul_iff (c d : α) (t : List α) :
    c :: t ∈ ({[d]} : Language α) * L ↔ c = d ∧ t ∈ L := by
  simp only [Language.mem_mul]
  constructor
  · rintro ⟨a, ha, b, hb, hab⟩
    rw [Set.mem_singleton_iff.1 ha, List.singleton_append, List.cons.injEq] at hab
    exact ⟨hab.1.symm, hab.2 ▸ hb⟩
  · rintro ⟨rfl, h⟩
    exact ⟨[c], rfl, t, h, rfl⟩

end Language
