import Mathlib

/-!
# Finite tables

Mathlib's association lists with unique keys (`AList`) at a constant value
type model the associative containers of the SDK.  This file adds the three
things it does not have: dropping the entries that fail a test, counting
entries, and summing a measure over them.

`covers_of_size` is the pigeonhole step of every "complete when all pieces are
there" argument: a table with `n` entries whose keys are all numbered below
`n` has an entry for each number.
-/

namespace KeyedTable

/-- A finite map from `κ` to `β`. -/
abbrev Table (κ β : Type) := AList (fun _ : κ => β)

variable {κ β : Type}

/-- Number of entries. -/
def size (t : Table κ β) : Nat := t.entries.length

/-- The entries that pass the test `p`. -/
def retain (p : κ → β → Bool) (t : Table κ β) : Table κ β :=
  ⟨t.entries.filter (fun e => p e.1 e.2), t.nodupKeys.sublist List.filter_sublist⟩

/-- Sum of a measure over the stored values. -/
def total (f : β → Nat) (t : Table κ β) : Nat :=
  (t.entries.map (fun e => f e.2)).sum

/-- The empty table has no entry. -/
@[simp] theorem size_empty : size (∅ : Table κ β) = 0 := rfl

/-- The empty table adds up to nothing. -/
@[simp] theorem total_empty (f : β → Nat) : total f (∅ : Table κ β) = 0 := rfl

/-- Sweeping adds no entry. -/
theorem retain_size_le (p : κ → β → Bool) (t : Table κ β) : size (retain p t) ≤ size t :=
  List.length_filter_le _ _

/-- There are as many entries as keys. -/
theorem size_eq_keys_length (t : Table κ β) : size t = t.keys.length := by
  simp [size, AList.keys, List.keys]

/-- The numbers of the keys, as a set of `size t` elements below `n`. -/
private theorem index_keys_subset {t : Table κ β} {index : κ → Nat} {n : Nat}
    (hinj : Function.Injective index) (hlt : ∀ k ∈ t, index k < n) :
    (t.keys.map index).toFinset ⊆ Finset.range n ∧
      (t.keys.map index).toFinset.card = size t := by
  constructor
  · intro i hi
    obtain ⟨k, hk, rfl⟩ := List.mem_map.mp (List.mem_toFinset.mp hi)
    exact Finset.mem_range.mpr (hlt k (AList.mem_keys.mpr hk))
  · rw [List.toFinset_card_of_nodup (t.keys_nodup.map hinj), List.length_map,
      size_eq_keys_length]

/-- **Coverage.**  If the keys are numbered injectively below `n` and there
are `n` entries, every number has an entry. -/
theorem covers_of_size {t : Table κ β} {index : κ → Nat} {n : Nat}
    (hinj : Function.Injective index) (hlt : ∀ k ∈ t, index k < n) (hsize : size t = n) :
    ∀ i < n, ∃ k ∈ t, index k = i := by
  obtain ⟨hsub, hcard⟩ := index_keys_subset hinj hlt
  have heq := Finset.eq_of_subset_of_card_le hsub (by rw [Finset.card_range, hcard, hsize])
  intro i hi
  have hmem : i ∈ (t.keys.map index).toFinset := heq ▸ Finset.mem_range.mpr hi
  obtain ⟨k, hk, hki⟩ := List.mem_map.mp (List.mem_toFinset.mp hmem)
  exact ⟨k, AList.mem_keys.mpr hk, hki⟩

/-- Keys numbered injectively below `n` bound the size by `n`. -/
theorem size_le_of_index {t : Table κ β} {index : κ → Nat} {n : Nat}
    (hinj : Function.Injective index) (hlt : ∀ k ∈ t, index k < n) : size t ≤ n := by
  obtain ⟨hsub, hcard⟩ := index_keys_subset hinj hlt
  have hle := Finset.card_le_card hsub
  rwa [hcard, Finset.card_range] at hle

/-- A table with an entry for every number below `n` has `n` entries at least. -/
theorem le_size_of_covers {t : Table κ β} (index : κ → Nat) {n : Nat}
    (hcovers : ∀ i < n, ∃ k ∈ t, index k = i) : n ≤ size t := by
  have hsub : Finset.range n ⊆ (t.keys.map index).toFinset := by
    intro i hi
    obtain ⟨k, hk, rfl⟩ := hcovers i (Finset.mem_range.mp hi)
    exact List.mem_toFinset.mpr (List.mem_map_of_mem (AList.mem_keys.mp hk))
  calc n = (Finset.range n).card := (Finset.card_range n).symm
    _ ≤ (t.keys.map index).toFinset.card := Finset.card_le_card hsub
    _ ≤ (t.keys.map index).length := List.toFinset_card_le _
    _ = size t := by rw [List.length_map, size_eq_keys_length]

/-- If the keys are numbered injectively below `n` and the value under number
`i` measures at most `g i`, the whole table measures at most the sum of `g`. -/
theorem total_le_sum_range {t : Table κ β} {index : κ → Nat} {n : Nat} {f : β → Nat}
    {g : Nat → Nat} (hinj : Function.Injective index) (hlt : ∀ k ∈ t, index k < n)
    (hle : ∀ e ∈ t.entries, f e.2 ≤ g (index e.1)) :
    total f t ≤ ∑ i ∈ Finset.range n, g i := by
  have hnodup : (t.keys.map index).Nodup := t.keys_nodup.map hinj
  calc total f t ≤ (t.entries.map (fun e => g (index e.1))).sum := List.sum_le_sum hle
    _ = ((t.keys.map index).map g).sum := by
        simp [AList.keys, List.keys, Function.comp_def]
    _ = ∑ i ∈ (t.keys.map index).toFinset, g i := (List.sum_toFinset g hnodup).symm
    _ ≤ ∑ i ∈ Finset.range n, g i :=
        Finset.sum_le_sum_of_subset (index_keys_subset hinj hlt).1

variable [DecidableEq κ]

/-- The entries are what the look-ups find. -/
theorem mem_entries_iff {t : Table κ β} {k : κ} {v : β} :
    (⟨k, v⟩ : Σ _ : κ, β) ∈ t.entries ↔ t.lookup k = some v :=
  (AList.mem_lookup_iff (s := t)).symm

/-- A lookup after dropping sees exactly the entries that passed. -/
theorem lookup_retain (p : κ → β → Bool) (t : Table κ β) (k : κ) :
    (retain p t).lookup k = (t.lookup k).filter (p k) := by
  ext v
  rw [Option.filter_eq_some_iff, ← mem_entries_iff, ← mem_entries_iff]
  simp [retain]

/-- What is found after an entry is dropped was there before, under another key. -/
theorem lookup_erase_some {k₀ k : κ} {v : β} {t : Table κ β} (h : (t.erase k₀).lookup k = some v) :
    k ≠ k₀ ∧ t.lookup k = some v := by
  by_cases hk : k = k₀
  · rw [hk, AList.lookup_erase] at h
    cases h
  · exact ⟨hk, by rwa [AList.lookup_erase_ne hk] at h⟩

/-- What is found after an insertion is the new entry, or was there before. -/
theorem lookup_insert_some {k₀ k : κ} {v₀ v : β} {t : Table κ β}
    (h : (t.insert k₀ v₀).lookup k = some v) : (k = k₀ ∧ v = v₀) ∨ t.lookup k = some v := by
  by_cases hk : k = k₀
  · rw [hk, AList.lookup_insert] at h
    exact Or.inl ⟨hk, (Option.some.inj h).symm⟩
  · exact Or.inr (by rwa [AList.lookup_insert_ne hk] at h)

/-- Dropping a key adds no entry. -/
theorem size_erase_le (k : κ) (t : Table κ β) : size (t.erase k) ≤ size t :=
  (List.kerase_sublist k t.entries).length_le

/-- A new key is one more entry. -/
theorem size_insert_of_not_mem {k : κ} {v : β} {t : Table κ β} (h : k ∉ t) :
    size (t.insert k v) = size t + 1 := by
  rw [size, AList.entries_insert_of_notMem h, List.length_cons, size]

/-- A key that is there is no new entry. -/
theorem size_insert_of_mem {k : κ} {v : β} {t : Table κ β} (h : k ∈ t) :
    size (t.insert k v) = size t := by
  rw [size_eq_keys_length, size_eq_keys_length, AList.keys_insert, List.length_cons,
    List.length_erase_of_mem (AList.mem_keys.mp h)]
  have hpos : 0 < t.keys.length := List.length_pos_of_mem (AList.mem_keys.mp h)
  omega

/-- Taking an entry out of the entry list accounts for its measure. -/
private theorem sum_kerase {f : β → Nat} {k : κ} {v : β} :
    ∀ {l : List (Σ _ : κ, β)}, List.dlookup k l = some v →
      (l.map (fun e => f e.2)).sum =
        ((List.kerase k l).map (fun e => f e.2)).sum + f v := by
  intro l
  induction l with
  | nil => simp
  | cons e l ih =>
      intro h
      rcases e with ⟨k', v'⟩
      by_cases hk : k = k'
      · subst hk
        rw [List.dlookup_cons_eq] at h
        simp [Option.some.inj h, Nat.add_comm]
      · rw [List.dlookup_cons_ne _ _ hk] at h
        have herase : List.kerase k (⟨k', v'⟩ :: l) = ⟨k', v'⟩ :: List.kerase k l :=
          List.kerase_cons_ne (β := fun _ => β) (s := ⟨k', v'⟩) hk
        simp [herase, ih h, Nat.add_assoc]

/-- Dropping an entry takes its share from the total. -/
theorem total_erase {f : β → Nat} {k : κ} {v : β} {t : Table κ β}
    (h : t.lookup k = some v) : total f t = total f (t.erase k) + f v :=
  sum_kerase h

/-- Inserting at a fresh key adds the new measure. -/
theorem total_insert_fresh {f : β → Nat} {k : κ} {v : β} {t : Table κ β}
    (h : t.lookup k = none) : total f (t.insert k v) = total f t + f v := by
  rw [total, AList.entries_insert_of_notMem (AList.lookup_eq_none.mp h), total]
  simp [Nat.add_comm]

/-- Inserting over an old value replaces its measure. -/
theorem total_insert_replace {f : β → Nat} {k : κ} {old v : β} {t : Table κ β}
    (h : t.lookup k = some old) :
    total f (t.insert k v) + f old = total f t + f v := by
  rw [total_erase h]
  simp only [total, AList.entries_insert, List.map_cons, List.sum_cons, AList.erase]
  omega

/-- No entry is more than the total. -/
theorem le_total_of_lookup {f : β → Nat} {k : κ} {v : β} {t : Table κ β}
    (h : t.lookup k = some v) : f v ≤ total f t := by
  rw [total_erase h]
  omega

/-- A table in which every lookup fails is empty. -/
theorem eq_empty_of_lookup_none {t : Table κ β} (h : ∀ k, t.lookup k = none) : t = ∅ := by
  apply AList.ext
  apply List.eq_nil_iff_forall_not_mem.mpr
  rintro ⟨k, v⟩ hmem
  rw [mem_entries_iff, h k] at hmem
  cases hmem

end KeyedTable
