import Mathlib.Data.List.AList

/-! # Association lists as hash maps

A `HashMap` is modelled by an `AList`. Removing a list of keys one after another (the
`for id in &expired { map.remove(id) }` pattern) is a left fold of `erase`; these are its
lookup and size. `retain` is `HashMap::retain` and `mapVal` an update through `values_mut`,
each with its lookup.
`mem_entries_insert` and `mem_entries_replace` bound the entries after an update, and
`lookup_replace` and `lookup_replace_ne` read an update in place back; `modify` is such an
update through `get_mut`, of a key that may be absent. `firstMinKey` is `min_by_key` over the
entries.
-/

namespace AList
set_option autoImplicit false

variable {α : Type*} {β : α → Type*} [DecidableEq α]

/-- `HashMap::retain`: keep the entries `p` accepts. -/
def retain (p : (a : α) → β a → Bool) (m : AList β) : AList β :=
  ⟨m.entries.filter (fun e => p e.1 e.2), m.nodupKeys.sublist List.filter_sublist⟩

/-- `for v in map.values_mut() { .. }`: update every value in place. -/
def mapVal {γ : α → Type*} (f : (a : α) → β a → γ a) (m : AList β) : AList γ :=
  ⟨m.entries.map fun e => ⟨e.1, f e.1 e.2⟩,
    by simpa [List.NodupKeys, List.keys, Function.comp_def] using m.nodupKeys⟩

omit [DecidableEq α] in
@[simp] theorem entries_mapVal {γ : α → Type*} (f : (a : α) → β a → γ a) (m : AList β) :
    (m.mapVal f).entries = m.entries.map fun e => ⟨e.1, f e.1 e.2⟩ := rfl

theorem lookup_mapVal {γ : α → Type*} (f : (a : α) → β a → γ a) (m : AList β) (k : α) :
    (m.mapVal f).lookup k = (m.lookup k).map (f k) :=
  List.dlookup_map₂ k

/-- A lookup in the entries `p` keeps finds the entry, if `p` keeps it. -/
theorem dlookup_filter (p : (a : α) → β a → Bool) (l : List (Sigma β)) (hl : l.NodupKeys) (k : α) :
    (l.filter fun e => p e.1 e.2).dlookup k = (l.dlookup k).filter (p k) := by
  induction l with
  | nil => rfl
  | cons e l ih =>
    obtain ⟨a, b⟩ := e
    rw [List.nodupKeys_cons] at hl
    by_cases hk : k = a
    · subst hk
      rw [List.dlookup_cons_eq, List.filter_cons]
      split_ifs with hp
      · rw [List.dlookup_cons_eq, Option.filter_some, if_pos hp]
      · rw [ih hl.2, List.dlookup_eq_none.mpr hl.1, Option.filter_some, if_neg hp]
        rfl
    · rw [List.dlookup_cons_ne _ _ hk, List.filter_cons]
      split_ifs
      · rw [List.dlookup_cons_ne _ _ hk, ih hl.2]
      · exact ih hl.2

theorem lookup_retain (p : (a : α) → β a → Bool) (m : AList β) (k : α) :
    (m.retain p).lookup k = (m.lookup k).filter (p k) :=
  dlookup_filter p m.entries m.nodupKeys k

theorem lookup_foldl_erase (ids : List α) (m : AList β) (k : α) :
    (ids.foldl (fun m id => m.erase id) m).lookup k = if k ∈ ids then none else m.lookup k := by
  induction ids generalizing m with
  | nil => simp
  | cons id ids ih =>
    rw [List.foldl_cons, ih]
    by_cases hk : k = id
    · subst hk
      simp [lookup_erase]
    · by_cases hmem : k ∈ ids
      · simp [hmem]
      · simp [hmem, hk, lookup_erase_ne hk]

theorem length_keys_foldl_erase_le (ids : List α) (m : AList β) :
    (ids.foldl (fun m id => m.erase id) m).keys.length ≤ m.keys.length := by
  induction ids generalizing m with
  | nil => simp
  | cons id ids ih =>
    rw [List.foldl_cons]
    calc _ ≤ (m.erase id).keys.length := ih _
      _ ≤ m.keys.length := by
        rw [keys_erase]
        exact List.length_erase_le

/-- Inserting a list of entries with distinct keys one after another: a lookup finds the
list's entry, or what the map held. -/
theorem lookup_foldl_insert (l : List (Sigma β)) (hl : l.NodupKeys) (m : AList β) (k : α) :
    (l.foldl (fun m e => m.insert e.1 e.2) m).lookup k = (l.dlookup k).or (m.lookup k) := by
  induction l generalizing m with
  | nil => simp
  | cons e l ih =>
    rw [List.nodupKeys_cons] at hl
    rw [List.foldl_cons, ih hl.2]
    by_cases hk : k = e.1
    · subst hk
      rw [List.dlookup_eq_none.mpr hl.1, lookup_insert]
      obtain ⟨a, b⟩ := e
      rw [List.dlookup_cons_eq]
      rfl
    · rw [lookup_insert_ne hk]
      obtain ⟨a, b⟩ := e
      rw [List.dlookup_cons_ne _ _ hk]

/-! ## Entries after an update

`HashMap::insert` and an update in place through `get_mut` are `insert` and `replace`; an
entry of the result is the new one or was there before. -/

theorem mem_entries_insert {a : α} {b : β a} {s : AList β} {e : Sigma β}
    (h : e ∈ (s.insert a b).entries) : e = ⟨a, b⟩ ∨ e ∈ s.entries := by
  rw [entries_insert, List.mem_cons] at h
  exact h.imp_right fun he => (List.kerase_sublist a s.entries).subset he

theorem mem_kreplace {a : α} {b : β a} {e : Sigma β} {l : List (Sigma β)}
    (h : e ∈ l.kreplace a b) : e = ⟨a, b⟩ ∨ e ∈ l := by
  induction l with
  | nil => simp [List.kreplace] at h
  | cons x l ih =>
    by_cases hx : a = x.1
    · have hf : (fun s : Sigma β => if a = s.1 then some (⟨a, b⟩ : Sigma β) else none) x =
          some ⟨a, b⟩ := if_pos hx
      rw [List.kreplace, List.lookmap_cons_some _ _ hf, List.mem_cons] at h
      exact h.imp_right fun h => List.mem_cons_of_mem _ h
    · have hf : (fun s : Sigma β => if a = s.1 then some (⟨a, b⟩ : Sigma β) else none) x =
          none := if_neg hx
      rw [List.kreplace, List.lookmap_cons_none _ _ hf, List.mem_cons] at h
      rcases h with h | h
      · exact .inr (h ▸ List.mem_cons_self)
      · exact (ih h).imp_right (List.mem_cons_of_mem _)

theorem mem_entries_replace {a : α} {b : β a} {s : AList β} {e : Sigma β}
    (h : e ∈ (s.replace a b).entries) : e = ⟨a, b⟩ ∨ e ∈ s.entries :=
  mem_kreplace h

theorem dlookup_kreplace {a : α} {b : β a} {l : List (Sigma β)} (h : a ∈ l.keys) :
    (l.kreplace a b).dlookup a = some b := by
  induction l with
  | nil => simp at h
  | cons x l ih =>
    by_cases hx : a = x.1
    · have hf : (fun s : Sigma β => if a = s.1 then some (⟨a, b⟩ : Sigma β) else none) x =
          some ⟨a, b⟩ := if_pos hx
      rw [List.kreplace, List.lookmap_cons_some _ _ hf, List.dlookup_cons_eq]
    · have hf : (fun s : Sigma β => if a = s.1 then some (⟨a, b⟩ : Sigma β) else none) x =
          none := if_neg hx
      have hl : a ∈ l.keys := by
        rw [List.keys_cons, List.mem_cons] at h
        exact h.resolve_left hx
      rw [List.kreplace, List.lookmap_cons_none _ _ hf]
      obtain ⟨x₁, x₂⟩ := x
      rw [List.dlookup_cons_ne _ _ hx]
      exact ih hl

theorem length_keys_insert_of_not_mem {a : α} {b : β a} {s : AList β} (h : a ∉ s) :
    (s.insert a b).keys.length = s.keys.length + 1 := by
  rw [keys_insert, List.length_cons, List.erase_of_not_mem (fun hk => h (mem_keys.mp hk))]

theorem length_keys_insert_of_mem {a : α} {b : β a} {s : AList β} (h : a ∈ s) :
    (s.insert a b).keys.length = s.keys.length := by
  have hk : a ∈ s.keys := mem_keys.mpr h
  rw [keys_insert, List.length_cons, List.length_erase_of_mem hk]
  have := List.length_pos_of_mem hk
  omega

/-- An update in place of a key the map holds is what a lookup of that key then finds. -/
theorem lookup_replace {a : α} {b : β a} {s : AList β} (h : a ∈ s) : (s.replace a b).lookup a = some b :=
  dlookup_kreplace h

theorem dlookup_kreplace_ne {a a' : α} {b : β a} (h : a' ≠ a) (l : List (Sigma β)) :
    (l.kreplace a b).dlookup a' = l.dlookup a' := by
  induction l with
  | nil => rfl
  | cons x l ih =>
    obtain ⟨x₁, x₂⟩ := x
    by_cases hx : a = x₁
    · subst hx
      have hf : (fun s : Sigma β => if a = s.1 then some (⟨a, b⟩ : Sigma β) else none) ⟨a, x₂⟩ =
          some ⟨a, b⟩ := if_pos rfl
      rw [List.kreplace, List.lookmap_cons_some _ _ hf, List.dlookup_cons_ne _ _ h,
        List.dlookup_cons_ne _ _ h]
    · have hf : (fun s : Sigma β => if a = s.1 then some (⟨a, b⟩ : Sigma β) else none) ⟨x₁, x₂⟩ =
          none := if_neg hx
      rw [List.kreplace, List.lookmap_cons_none _ _ hf]
      by_cases hx' : a' = x₁
      · subst hx'
        rw [List.dlookup_cons_eq, List.dlookup_cons_eq]
      · rw [List.dlookup_cons_ne _ _ hx', List.dlookup_cons_ne _ _ hx']
        exact ih

theorem lookup_replace_ne {a a' : α} {b : β a} {s : AList β} (h : a' ≠ a) :
    (s.replace a b).lookup a' = s.lookup a' :=
  dlookup_kreplace_ne h s.entries

/-- `if let Some(v) = map.get_mut(&k) { .. }`: update the value of `k` in place, if there is one. -/
def modify (k : α) (f : β k → β k) (m : AList β) : AList β :=
  match m.lookup k with
  | some v => m.replace k (f v)
  | none => m

theorem lookup_modify (k : α) (f : β k → β k) (m : AList β) :
    (m.modify k f).lookup k = (m.lookup k).map f := by
  unfold modify
  split
  · rename_i v hv
    rw [lookup_replace (lookup_isSome.1 (by rw [hv]; rfl)), hv, Option.map_some]
  · rename_i hv
    rw [hv, Option.map_none]

theorem lookup_modify_ne {k k' : α} (f : β k → β k) (m : AList β) (h : k' ≠ k) :
    (m.modify k f).lookup k' = m.lookup k' := by
  unfold modify
  split
  · exact lookup_replace_ne h
  · rfl

/-! ## The entry of least weight -/

/-- The key of the first entry whose `f` is least: `iter().min_by_key(f)` over a map whose
iteration order is the order of its entries. -/
def firstMinKey (f : Sigma β → ℕ) (entries : List (Sigma β)) : Option α :=
  (entries.foldl (fun least e =>
    match least with
    | none => some e
    | some l => if f e < f l then some e else some l) none).map (·.1)

end AList
