import Dragonmouth.Foundations.OrderedMap
import Mathlib.Data.List.Sort

/-!
# Registries of ids

Objects that come and go hold ids, and a map has an entry for each id in use. A
new object takes the least number that is not a key: the keys in their order are
walked beside the numbers from zero, and the first number that differs from its
key is free; if none differs, the length of the map is.

## Main definitions

- `Finmap.sortedKeys`: the keys of a map in ascending order
- `List.firstGap`: the walk over the keys
- `Finmap.isLeast_firstGap`: what it finds
- `Registry`: every object has an id of its own, and these are the ids in use
-/

namespace Finmap

variable {κ ν : Type} [LinearOrder κ]

/-- The keys in the order in which an ordered map iterates them. -/
def sortedKeys (m : OrderedMap κ ν) : List κ :=
  Quot.liftOn m.keys.val (List.insertionSort (· ≤ ·)) fun l₁ l₂ h =>
    List.Perm.eq_of_pairwise' (List.pairwise_insertionSort (· ≤ ·) l₁)
      (List.pairwise_insertionSort (· ≤ ·) l₂)
      ((List.perm_insertionSort _ l₁).trans (h.trans (List.perm_insertionSort _ l₂).symm))

/-- The sorted keys are the keys. -/
theorem coe_sortedKeys (m : OrderedMap κ ν) : (m.sortedKeys : Multiset κ) = m.keys.val := by
  unfold sortedKeys
  induction m.keys.val using Quot.ind with
  | mk l => exact Multiset.coe_eq_coe.mpr (List.perm_insertionSort _ l)

theorem pairwise_sortedKeys (m : OrderedMap κ ν) : m.sortedKeys.Pairwise (· ≤ ·) := by
  unfold sortedKeys
  induction m.keys.val using Quot.ind with
  | mk l => exact List.pairwise_insertionSort _ l

theorem mem_sortedKeys {m : OrderedMap κ ν} {k : κ} : k ∈ m.sortedKeys ↔ k ∈ m := by
  rw [← Multiset.mem_coe, coe_sortedKeys, Finset.mem_val, mem_keys]

theorem length_sortedKeys (m : OrderedMap κ ν) : m.sortedKeys.length = m.len := by
  rw [← Multiset.coe_card, coe_sortedKeys]
  rfl

theorem sortedLT_sortedKeys (m : OrderedMap κ ν) : m.sortedKeys.SortedLT := by
  have hnodup : m.sortedKeys.Nodup := by
    rw [← Multiset.coe_nodup, coe_sortedKeys]
    exact m.keys.nodup
  exact m.pairwise_sortedKeys.sortedLE.sortedLT_of_nodup hnodup

end Finmap

namespace List

/-- Walk a list beside the numbers from `start` to below `bound`; stop at the
first number that differs from its element. -/
def firstGap (bound start : ℕ) : List ℕ → Option ℕ
  | [] => none
  | k :: ks =>
    if start < bound then
      if start ≠ k then some start else firstGap bound (start + 1) ks
    else none

variable {bound start : ℕ} {l : List ℕ}

/-- What the walk finds is missing, and all before it are there. -/
theorem firstGap_some {i : ℕ} (hl : l.SortedLT) (hstart : ∀ k ∈ l, start ≤ k)
    (h : firstGap bound start l = some i) :
    start ≤ i ∧ i ∉ l ∧ ∀ j, start ≤ j → j < i → j ∈ l := by
  induction l generalizing start with
  | nil => cases h
  | cons k ks ih =>
    obtain ⟨hk, hks⟩ := List.pairwise_cons.mp hl.pairwise
    rw [firstGap] at h
    split at h
    swap
    · cases h
    split at h
    · rename_i hne
      obtain rfl := Option.some.inj h
      refine ⟨Nat.le_refl _, fun hmem => ?_, fun j hj hji => absurd hji (Nat.not_lt.mpr hj)⟩
      -- the list starts above `start` and ascends
      have hlt : start < k := Nat.lt_of_le_of_ne (hstart k mem_cons_self) hne
      rcases List.mem_cons.mp hmem with heq | hmem
      · exact hne heq
      · exact Nat.lt_asymm hlt (hk start hmem)
    · rename_i heq
      obtain rfl := Classical.not_not.mp heq
      obtain ⟨hi, hnot, hbelow⟩ := ih hks.sortedLT hk h
      refine ⟨Nat.le_of_succ_le hi, ?_, ?_⟩
      · exact List.not_mem_cons_of_ne_of_not_mem (Nat.ne_of_gt hi) hnot
      · intro j hj hji
        rcases Nat.eq_or_lt_of_le hj with heq | hlt
        · exact heq ▸ mem_cons_self
        · exact mem_cons_of_mem _ (hbelow j hlt hji)

/-- A walk that finds nothing has passed over an interval. -/
theorem firstGap_none (hbound : start + l.length ≤ bound) (h : firstGap bound start l = none) :
    l = List.range' start l.length := by
  induction l generalizing start with
  | nil => rfl
  | cons k ks ih =>
    rw [length_cons] at hbound
    have hlt : start < bound := by omega
    rw [firstGap, if_pos hlt] at h
    split at h
    · cases h
    · rename_i heq
      obtain rfl := Classical.not_not.mp heq
      rw [length_cons, range'_succ, ← ih (by omega) h]

end List

namespace Finmap

variable {ν : Type}

/-- The first gap between the sorted keys, and else their number, is the least
number that is not a key. -/
theorem isLeast_firstGap {bound : ℕ} {m : OrderedMap ℕ ν} (hbound : m.len ≤ bound) :
    IsLeast {i | i ∉ m} ((m.sortedKeys.firstGap bound 0).getD m.len) := by
  cases hgap : m.sortedKeys.firstGap bound 0 with
  | some i =>
    obtain ⟨-, hnot, hbelow⟩ :=
      List.firstGap_some m.sortedLT_sortedKeys (fun k _ => Nat.zero_le k) hgap
    refine ⟨fun hmem => hnot (mem_sortedKeys.mpr hmem), fun j hj => Nat.not_lt.mp fun hlt => ?_⟩
    exact hj (mem_sortedKeys.mp (hbelow j (Nat.zero_le j) hlt))
  | none =>
    have hlen := m.length_sortedKeys
    have hkeys := List.firstGap_none (by omega) hgap
    have hmem : ∀ j, j ∈ m ↔ j < m.len := by
      intro j
      rw [← mem_sortedKeys, hkeys, List.mem_range'_1, hlen, Nat.zero_add]
      exact and_iff_right (Nat.zero_le j)
    refine ⟨fun h => Nat.lt_irrefl _ ((hmem _).mp h), fun j hj => ?_⟩
    exact Nat.not_lt.mp fun hlt => hj ((hmem j).mpr hlt)

end Finmap

/-- Every live object has an id of its own, and the ids in use are theirs. -/
structure Registry {H ι : Type} (idOf : H → Option ι) (used : Finset ι) : Prop where
  inj : ∀ {h₁ h₂ i}, idOf h₁ = some i → idOf h₂ = some i → h₁ = h₂
  mem_iff : ∀ {i}, i ∈ used ↔ ∃ h, idOf h = some i

namespace Registry

variable {H ι : Type} [DecidableEq H] {idOf : H → Option ι} {used : Finset ι} {h : H} {i : ι}

theorem update_eq_some {value : Option ι} {j : ι} {h' : H} :
    Function.update idOf h value h' = some j ↔
      h' = h ∧ value = some j ∨ h' ≠ h ∧ idOf h' = some j := by
  rw [Function.update_apply]
  split <;> simp [*]

variable [DecidableEq ι]

/-- A new object takes an id that is not in use. -/
theorem insert (hr : Registry idOf used) (hnew : idOf h = none) (hfree : i ∉ used) :
    Registry (Function.update idOf h (some i)) (Insert.insert i used) where
  inj := by
    intro h₁ h₂ j h₁j h₂j
    rw [update_eq_some] at h₁j h₂j
    obtain ⟨rfl, hj⟩ | ⟨-, h₁j⟩ := h₁j
    · obtain ⟨rfl, -⟩ | ⟨-, h₂j⟩ := h₂j
      · rfl
      · exact absurd (hr.mem_iff.mpr ⟨h₂, Option.some.inj hj ▸ h₂j⟩) hfree
    · obtain ⟨rfl, hj⟩ | ⟨-, h₂j⟩ := h₂j
      · exact absurd (hr.mem_iff.mpr ⟨h₁, Option.some.inj hj ▸ h₁j⟩) hfree
      · exact hr.inj h₁j h₂j
  mem_iff := by
    intro j
    rw [Finset.mem_insert, hr.mem_iff]
    constructor
    · rintro (rfl | ⟨h', hj⟩)
      · exact ⟨h, update_eq_some.mpr (.inl ⟨rfl, rfl⟩)⟩
      · have hne : h' ≠ h := by
          rintro rfl
          rw [hnew] at hj
          cases hj
        exact ⟨h', update_eq_some.mpr (.inr ⟨hne, hj⟩)⟩
    · rintro ⟨h', hj⟩
      obtain ⟨-, hj⟩ | ⟨-, hj⟩ := update_eq_some.mp hj
      · exact .inl (Option.some.inj hj).symm
      · exact .inr ⟨h', hj⟩

/-- An object that goes gives its id back. -/
theorem erase (hr : Registry idOf used) (hi : idOf h = some i) :
    Registry (Function.update idOf h none) (used.erase i) where
  inj := by
    intro h₁ h₂ j h₁j h₂j
    obtain ⟨-, hj⟩ | ⟨-, h₁j⟩ := update_eq_some.mp h₁j
    · cases hj
    obtain ⟨-, hj⟩ | ⟨-, h₂j⟩ := update_eq_some.mp h₂j
    · cases hj
    exact hr.inj h₁j h₂j
  mem_iff := by
    intro j
    rw [Finset.mem_erase, hr.mem_iff]
    constructor
    · rintro ⟨hne, h', hj⟩
      refine ⟨h', update_eq_some.mpr (.inr ⟨?_, hj⟩)⟩
      rintro rfl
      exact hne (Option.some.inj (hj.symm.trans hi))
    · rintro ⟨h', hj⟩
      obtain ⟨-, hj⟩ | ⟨hne, hj⟩ := update_eq_some.mp hj
      · cases hj
      · refine ⟨?_, h', hj⟩
        rintro rfl
        exact hne (hr.inj hj hi)

end Registry
