import Mathlib.Data.Finmap

/-!
# Hash maps

A hash map is the list of its entries in the order in which it iterates them,
one entry for each key. Two maps are equal as maps if their `toFinmap`s are. The
order of a map that has been collected from entries is not specified: it depends
on the state of its hasher, which is a parameter.

## Main definitions

- `HashMap`, `HashSet`: association lists of Mathlib
- `RandomState`: the order in which a new map iterates its entries
- `HashMap.collect`: a map built from entries
- `HashMap.collect_map`: a map built from the entries of another
-/

/-- A hash map by its entries in the order of iteration. -/
abbrev HashMap (κ ν : Type) := AList fun _ : κ => ν

/-- An entry of a hash map. -/
abbrev HashMap.Entry (κ ν : Type) := Sigma fun _ : κ => ν

/-- A hash set is a hash map without values. -/
abbrev HashSet (α : Type) := HashMap α Unit

/-- How new maps order their entries; the seed tells the maps of a run apart. -/
structure RandomState where
  order : ℕ → {κ ν : Type} → HashMap κ ν → HashMap κ ν
  perm : ∀ seed {κ ν : Type} (m : HashMap κ ν), (order seed m).entries.Perm m.entries

/-- Maps that iterate their entries in the order of the association list. -/
def RandomState.listed : RandomState where
  order := fun _ {_ _} m => m
  perm := fun _ {_ _} _ => .refl _

namespace HashMap

variable {κ ν ν' : Type}

def values (m : HashMap κ ν) : List ν := m.entries.map Sigma.snd

def len (m : HashMap κ ν) : ℕ := m.entries.length

theorem mem_values {m : HashMap κ ν} {v : ν} : v ∈ m.values ↔ ∃ k, ⟨k, v⟩ ∈ m.entries := by
  constructor
  · intro h
    obtain ⟨⟨k, v'⟩, he, rfl⟩ := List.mem_map.mp h
    exact ⟨k, he⟩
  · rintro ⟨k, he⟩
    exact List.mem_map.mpr ⟨⟨k, v⟩, he, rfl⟩

variable [DecidableEq κ]

/-- `into_iter().collect()`: insert the entries one after the other. -/
def collect (state : RandomState) (seed : ℕ) (entries : List (Entry κ ν)) : HashMap κ ν :=
  state.order seed entries.reverse.toAList

theorem dedupKeys_of_nodupKeys {l : List (Entry κ ν)} (h : l.NodupKeys) : l.dedupKeys = l := by
  induction l with
  | nil => rfl
  | cons e l ih =>
    rw [List.nodupKeys_cons] at h
    rw [List.dedupKeys_cons, ih h.2, List.kinsert_def, List.kerase_of_notMem_keys h.1]

/-- The entries of a map that has been collected from distinct keys. -/
theorem collect_perm (state : RandomState) (seed : ℕ) {entries : List (Entry κ ν)}
    (h : entries.NodupKeys) : (collect state seed entries).entries.Perm entries := by
  have hrev : entries.reverse.NodupKeys := (List.perm_nodupKeys entries.reverse_perm).mpr h
  refine (state.perm seed _).trans ?_
  rw [AList.entries_toAList, dedupKeys_of_nodupKeys hrev]
  exact entries.reverse_perm

/-- A map that has been collected from the entries of another, mapped without
changing their keys, iterates the mapped entries of the other in some order. -/
theorem collect_map (state : RandomState) (seed : ℕ) {f : Entry κ ν → Entry κ ν'}
    (hf : ∀ entry, (f entry).1 = entry.1) (m : HashMap κ ν) :
    ∃ entries : List (Entry κ ν), entries.Perm m.entries ∧
      (collect state seed (m.entries.map f)).entries = entries.map f := by
  have hkeys : (m.entries.map f).keys = m.entries.keys := by
    rw [List.keys, List.keys, List.map_map]
    exact List.map_congr_left fun entry _ => hf entry
  have hnodup : (m.entries.map f).NodupKeys := by
    rw [List.NodupKeys, hkeys]
    exact m.nodupKeys
  have hperm := collect_perm state seed hnodup
  rw [← congrFun₂ (List.eq_map_comp_perm f)] at hperm
  obtain ⟨entries, hmap, hentries⟩ := hperm
  exact ⟨entries, hentries, hmap⟩

end HashMap
