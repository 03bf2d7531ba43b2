import Mathlib.Data.Finmap
import Mathlib.Data.Finset.Max
import Mathlib.Order.Lattice.Nat

/-!
# Finite maps with ordered keys

`OrderedMap κ ν` is a finite map whose keys are linearly ordered, with the
operations a program performs on an ordered or a hashed map: its length, its
least key, removal of the least entry, and removal of all entries that fail a
condition. Lookup, insertion and erasure are
Mathlib's operations on `Finmap`.
-/

universe u v

/-- A finite map from `κ` to `ν`; its entries carry no order of insertion. -/
abbrev OrderedMap (κ : Type u) (ν : Type v) := Finmap fun _ : κ => ν

namespace Finmap

variable {κ : Type u} {ν : Type v}

/-- The number of keys. -/
def len (m : OrderedMap κ ν) : ℕ := m.keys.card

@[simp] theorem len_empty : (∅ : OrderedMap κ ν).len = 0 := by
  simp [len, keys_empty]

theorem len_pos_iff {m : OrderedMap κ ν} : 0 < m.len ↔ ∃ k, k ∈ m := by
  simp [len, Finset.card_pos, Finset.Nonempty, mem_keys]

variable [DecidableEq κ]

/-- `m'` has been obtained from `m` by removing entries. -/
def Sub (m' m : OrderedMap κ ν) : Prop :=
  ∀ k v, m'.lookup k = some v → m.lookup k = some v

theorem Sub.refl (m : OrderedMap κ ν) : Sub m m := fun _ _ h => h

theorem Sub.trans {m₁ m₂ m₃ : OrderedMap κ ν} (h₁ : Sub m₁ m₂) (h₂ : Sub m₂ m₃) :
    Sub m₁ m₃ := fun k v h => h₂ k v (h₁ k v h)

theorem lookup_erase_eq_some {m : OrderedMap κ ν} {k j : κ} {v : ν} :
    (m.erase k).lookup j = some v ↔ j ≠ k ∧ m.lookup j = some v := by
  by_cases h : j = k
  · subst j
    simp [lookup_erase]
  · simp [lookup_erase_ne h, h]

theorem Sub.erase (m : OrderedMap κ ν) (k : κ) : Sub (m.erase k) m :=
  fun _ _ h => (lookup_erase_eq_some.mp h).2

theorem Sub.mem {m' m : OrderedMap κ ν} (h : Sub m' m) {k : κ} (hk : k ∈ m') : k ∈ m := by
  rw [mem_iff] at hk ⊢
  obtain ⟨v, hv⟩ := hk
  exact ⟨v, h k v hv⟩

theorem Sub.len_le {m' m : OrderedMap κ ν} (h : Sub m' m) : m'.len ≤ m.len :=
  Finset.card_le_card fun _ hk => mem_keys.mpr (h.mem (mem_keys.mp hk))

theorem lookup_insert_eq (m : OrderedMap κ ν) (k j : κ) (v : ν) :
    (m.insert k v).lookup j = if j = k then some v else m.lookup j := by
  by_cases h : j = k
  · subst j
    simp [lookup_insert]
  · simp [lookup_insert_of_ne _ h, h]

theorem keys_insert (m : OrderedMap κ ν) (k : κ) (v : ν) :
    (m.insert k v).keys = Insert.insert k m.keys := by
  ext j
  simp [mem_keys, mem_insert]

theorem len_insert_of_mem {m : OrderedMap κ ν} {k : κ} (v : ν) (h : k ∈ m) :
    (m.insert k v).len = m.len := by
  rw [len, keys_insert, Finset.insert_eq_of_mem (mem_keys.mpr h), len]

theorem len_insert_of_notMem {m : OrderedMap κ ν} {k : κ} (v : ν) (h : k ∉ m) :
    (m.insert k v).len = m.len + 1 := by
  rw [len, keys_insert, Finset.card_insert_of_notMem fun hm => h (mem_keys.mp hm), len]

theorem len_erase_of_mem {m : OrderedMap κ ν} {k : κ} (h : k ∈ m) :
    (m.erase k).len + 1 = m.len := by
  rw [len, keys_erase, Finset.card_erase_add_one (mem_keys.mpr h), len]

/-- Keep the entries that satisfy a condition. -/
def retain (m : OrderedMap κ ν) (keep : κ → ν → Bool) : OrderedMap κ ν where
  entries := m.entries.filter fun entry => keep entry.1 entry.2
  nodupKeys := by
    have hle := Multiset.map_le_map (f := Sigma.fst)
      (Multiset.filter_le (fun entry : Sigma fun _ : κ => ν => keep entry.1 entry.2) m.entries)
    exact Multiset.nodup_keys.mp (Multiset.nodup_of_le hle (Multiset.nodup_keys.mpr m.nodupKeys))

theorem lookup_retain (m : OrderedMap κ ν) (keep : κ → ν → Bool) (k : κ) :
    (m.retain keep).lookup k = (m.lookup k).filter (keep k) := by
  ext v
  rw [lookup_eq_some_iff, Option.filter_eq_some_iff,
    lookup_eq_some_iff]
  exact Multiset.mem_filter

end Finmap

namespace Finmap

variable {κ : Type u} {ν : Type v} [LinearOrder κ]

/-- The least key, if there is one. -/
def firstKey (m : OrderedMap κ ν) : Option κ :=
  if h : m.keys.Nonempty then some (m.keys.min' h) else none

/-- The entry of the least key. -/
def firstKeyValue (m : OrderedMap κ ν) : Option (κ × ν) :=
  m.firstKey.bind fun k => (m.lookup k).map fun v => (k, v)

/-- Remove the entry of the least key and return it. -/
def popFirst (m : OrderedMap κ ν) : Option ((κ × ν) × OrderedMap κ ν) :=
  m.firstKeyValue.map fun kv => (kv, m.erase kv.1)

theorem firstKey_eq_none {m : OrderedMap κ ν} : m.firstKey = none ↔ m.len = 0 := by
  rw [firstKey, len, Finset.card_eq_zero]
  split
  · rename_i h
    simpa using h.ne_empty
  · rename_i h
    simpa using Finset.not_nonempty_iff_eq_empty.mp h

/-- A map without a first key has none. -/
theorem notMem_of_firstKey {m : OrderedMap κ ν} (h : m.firstKey = none) (k : κ) : k ∉ m := by
  intro hmem
  have hpos := len_pos_iff.mpr ⟨k, hmem⟩
  rw [firstKey_eq_none.mp h] at hpos
  exact Nat.lt_irrefl 0 hpos

theorem mem_of_firstKey {m : OrderedMap κ ν} {k : κ} (h : m.firstKey = some k) : k ∈ m := by
  rw [firstKey] at h
  split at h
  · rename_i hn
    rw [← Option.some.inj h]
    exact mem_keys.mp (Finset.min'_mem _ hn)
  · cases h

theorem firstKey_le {m : OrderedMap κ ν} {k j : κ} (h : m.firstKey = some k) (hj : j ∈ m) :
    k ≤ j := by
  rw [firstKey] at h
  split at h
  · rw [← Option.some.inj h]
    exact Finset.min'_le _ _ (mem_keys.mpr hj)
  · cases h

/-- A nonempty map pops its least entry. -/
theorem popFirst_of_pos {m : OrderedMap κ ν} (h : 0 < m.len) :
    ∃ k v, m.popFirst = some ((k, v), m.erase k) ∧ m.lookup k = some v ∧ ∀ j ∈ m, k ≤ j := by
  cases hk : m.firstKey with
  | none => exact absurd (firstKey_eq_none.mp hk) (Nat.ne_of_gt h)
  | some k =>
    obtain ⟨v, hv⟩ := mem_iff.mp (mem_of_firstKey hk)
    refine ⟨k, v, ?_, hv, fun j hj => firstKey_le hk hj⟩
    simp [popFirst, firstKeyValue, hk, hv]

end Finmap
