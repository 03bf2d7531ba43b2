import Mathlib.Data.List.Basic

/-!
# A window of items in shared cells

Items are numbered from the first one on; each is kept in the cell its number is
mapped to, from when it is stored until it is taken. The mapping need not spread
the numbers evenly: it may leave cells unused and send neighbours to one cell. An
item is only stored into an empty cell, and items are taken in order.

## Main definitions

- `CellWindow`: the cells hold the items from a number on, and nothing else
- `CellWindow.read`, `CellWindow.store`, `CellWindow.take`: the operations
-/

variable {α : Type} {cells : List (Option α)} {idx : ℕ → ℕ} {items : List α} {lo : ℕ} {item : α}

/-- The items from number `lo` on are each in their cell, in cells of their own, and
the other cells are empty. -/
structure CellWindow (cells : List (Option α)) (idx : ℕ → ℕ) (items : List α) (lo : ℕ) :
    Prop where
  le : lo ≤ items.length
  own : ∀ p item, lo ≤ p → items[p]? = some item → cells[idx p]? = some (some item)
  apart : ∀ p q, lo ≤ p → p < q → q < items.length → idx p ≠ idx q
  rest : ∀ i < cells.length, (∀ p, lo ≤ p → p < items.length → idx p ≠ i) → cells[i]? = some none

namespace CellWindow

/-- Empty cells hold no items. -/
theorem empty (n : ℕ) (idx : ℕ → ℕ) : CellWindow (List.replicate n (none : Option α)) idx [] 0 where
  le := Nat.le_refl 0
  own _ _ _ hp := absurd hp (by simp)
  apart _ q _ _ hq := absurd hq (Nat.not_lt_zero q)
  rest i hi _ := by
    rw [List.length_replicate] at hi
    rw [List.getElem?_replicate, if_pos hi]

/-- The cell of the first item holds that item, or nothing if there is none. -/
theorem read (h : CellWindow cells idx items lo) (hidx : idx lo < cells.length) :
    cells[idx lo]? = some items[lo]? := by
  rcases Nat.lt_or_eq_of_le h.le with hlt | rfl
  · rw [List.getElem?_eq_getElem hlt]
    exact h.own lo _ (Nat.le_refl lo) (List.getElem?_eq_getElem hlt)
  · rw [List.getElem?_eq_none (Nat.le_refl _)]
    exact h.rest _ hidx fun p hp hp' => absurd hp' (Nat.not_lt.mpr hp)

/-- An item is stored into the cell of its number if that is empty. -/
theorem store (h : CellWindow cells idx items lo) (hempty : cells[idx items.length]? = some none)
    (item : α) :
    CellWindow (cells.set (idx items.length) (some item)) idx (items ++ [item]) lo := by
  have hcell : idx items.length < cells.length := (List.getElem?_eq_some_iff.mp hempty).1
  have hfree : ∀ p, lo ≤ p → p < items.length → idx p ≠ idx items.length := by
    intro p hp hlt he
    have hown := h.own p _ hp (List.getElem?_eq_getElem hlt)
    rw [he, hempty] at hown
    cases hown
  constructor
  · rw [List.length_append]
    exact Nat.le_add_right_of_le h.le
  · intro p x hp hx
    rcases Nat.lt_or_ge p items.length with hlt | hge
    · rw [List.getElem?_append_left hlt] at hx
      rw [List.getElem?_set_ne (hfree p hp hlt).symm]
      exact h.own p x hp hx
    · have hlast : p = items.length := by
        have hbound := (List.getElem?_eq_some_iff.mp hx).1
        rw [List.length_append, List.length_singleton] at hbound
        omega
      subst hlast
      rw [List.getElem?_concat_length] at hx
      rw [List.getElem?_set_self hcell, hx]
  · intro p q hp hpq hq
    rw [List.length_append, List.length_singleton] at hq
    rcases Nat.lt_or_eq_of_le (Nat.le_of_lt_succ hq) with hlt | rfl
    · exact h.apart p q hp hpq hlt
    · exact hfree p hp hpq
  · intro i hi hout
    rw [List.length_set] at hi
    rw [List.length_append, List.length_singleton] at hout
    rw [List.getElem?_set_ne (hout items.length h.le (Nat.lt_succ_self _))]
    exact h.rest i hi fun p hp hlt => hout p hp (Nat.lt_succ_of_lt hlt)

/-- The first item is taken out of its cell. -/
theorem take (h : CellWindow cells idx items lo) (hlt : lo < items.length) :
    CellWindow (cells.set (idx lo) none) idx items (lo + 1) where
  le := hlt
  own p item hp hitem := by
    have hbound := (List.getElem?_eq_some_iff.mp hitem).1
    rw [List.getElem?_set_ne (h.apart lo p (Nat.le_refl lo) hp hbound)]
    exact h.own p item (Nat.le_of_succ_le hp) hitem
  apart p q hp := h.apart p q (Nat.le_of_succ_le hp)
  rest i hi hout := by
    rw [List.length_set] at hi
    by_cases he : idx lo = i
    · rw [← he] at hi ⊢
      rw [List.getElem?_set_self hi]
    · rw [List.getElem?_set_ne he]
      refine h.rest i hi fun p hp hp' => ?_
      rcases Nat.lt_or_eq_of_le hp with hlo | rfl
      · exact hout p hlo hp'
      · exact he

/-- An occupied cell is that of an item under way. -/
theorem occupied (h : CellWindow cells idx items lo) {i : ℕ}
    (hcell : cells[i]? = some (some item)) : ∃ p, lo ≤ p ∧ p < items.length ∧ idx p = i := by
  by_contra hnone
  have hlt : i < cells.length := (List.getElem?_eq_some_iff.mp hcell).1
  have hempty := h.rest i hlt fun p hp hp' he => hnone ⟨p, hp, hp', he⟩
  rw [hcell] at hempty
  cases hempty

/-- Without a first item, emptying its cell changes nothing. -/
theorem take_nothing (h : CellWindow cells idx items lo) (hnone : items[lo]? = none)
    (hidx : idx lo < cells.length) : cells.set (idx lo) none = cells := by
  have hread := h.read hidx
  rw [hnone, List.getElem?_eq_some_iff] at hread
  obtain ⟨hlt, hcell⟩ := hread
  conv_lhs => rw [← hcell]
  exact List.set_getElem_self hlt

end CellWindow
