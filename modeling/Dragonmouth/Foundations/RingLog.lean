import Mathlib.Algebra.BigOperators.Group.List.Basic
import Mathlib.Data.Nat.Bitwise
import Mathlib.Data.Nat.ModEq

/-!
# Rings of cells over an append-only log

A ring of `N` cells keeps the newest part of an append-only log. Positions
count from `N`: the `i`-th entry ever stored has position `N + i` and lives in
cell `(N + i) % N`. A cell carries the position of its last store, its *stamp*,
and the stored value until that value is taken out.

## Main definitions

- `Window`: the cells hold exactly the log from `head` to `tail`
- `Trace`: the weaker relation that also holds while a writer is at work
- `Indexes`: a map of keys to positions points at retained entries of its keys
- `weightFrom`: the total weight of the log from an entry on
-/

universe u v

namespace RingLog

/-- A cell of a ring: the position of its last store and the value, if present. -/
structure Cell (α : Type u) where
  pos : ℕ
  val : Option α

variable {α : Type u} {κ : Type v} {N head tail : ℕ} {cells : ℕ → Cell α} {log : List α}

/-- Two positions less than a lap apart that share a cell are equal. -/
theorem eq_of_mod_eq {p q t : ℕ} (hp : p < t) (hp' : t ≤ p + N) (hq : q < t)
    (hq' : t ≤ q + N) (h : p % N = q % N) : p = q := by
  rcases Nat.le_total p q with hle | hle
  · have hd : N ∣ q - p := (Nat.modEq_iff_dvd' hle).mp h
    have hz : q - p = 0 := Nat.eq_zero_of_dvd_of_lt hd (by omega)
    omega
  · have hd : N ∣ p - q := (Nat.modEq_iff_dvd' hle).mp h.symm
    have hz : p - q = 0 := Nat.eq_zero_of_dvd_of_lt hd (by omega)
    omega

/-- Every cell has exactly one position in the last lap before `t`. -/
theorem exists_pos_of_lt {i t : ℕ} (hi : i < N) (ht : N ≤ t) :
    ∃ p, p < t ∧ t ≤ p + N ∧ p % N = i := by
  obtain ⟨d, hd, hmod⟩ : ∃ d, d < N ∧ (t - N + d) % N = i := by
    have hr : (t - N) % N < N := Nat.mod_lt _ (by omega)
    by_cases hle : (t - N) % N ≤ i
    · refine ⟨i - (t - N) % N, by omega, ?_⟩
      rw [Nat.add_mod, Nat.mod_eq_of_lt (show i - (t - N) % N < N by omega)]
      rw [Nat.add_sub_cancel' hle, Nat.mod_eq_of_lt hi]
    · refine ⟨i + N - (t - N) % N, by omega, ?_⟩
      rw [Nat.add_mod, Nat.mod_eq_of_lt (show i + N - (t - N) % N < N by omega)]
      rw [Nat.add_sub_cancel' (by omega), Nat.add_mod_right, Nat.mod_eq_of_lt hi]
  exact ⟨t - N + d, by omega, by omega, hmod⟩

/-- Masking with `2 ^ k - 1` is reduction modulo the ring size. -/
theorem and_mask_eq_mod {mask k : ℕ} (h : mask + 1 = 2 ^ k) (p : ℕ) :
    p &&& mask = p % (mask + 1) := by
  have hm : mask = 2 ^ k - 1 := by omega
  rw [h, hm, Nat.and_two_pow_sub_one_eq_mod]

/-- The cells hold exactly the log entries at the positions from `head` to
`tail`, and every cell is stamped with its position in the last lap. -/
structure Window (N : ℕ) (cells : ℕ → Cell α) (head tail : ℕ) (log : List α) : Prop where
  base_le : N ≤ head
  head_le : head ≤ tail
  tail_le : tail ≤ head + N
  tail_eq : tail = N + log.length
  cell : ∀ p, p < tail → tail ≤ p + N →
    cells (p % N) = ⟨p, if head ≤ p then log[p - N]? else none⟩

/-- A fresh ring of empty cells holds the empty log. -/
theorem Window.init (h : ∀ i < N, cells i = ⟨i, none⟩) : Window N cells N N [] := by
  refine ⟨le_rfl, le_rfl, by omega, by simp, fun p hp _ => ?_⟩
  rw [Nat.mod_eq_of_lt hp, h p hp, if_neg (by omega)]

/-- A retained position is in the log and its cell holds that entry. -/
theorem Window.held (h : Window N cells head tail log) {p : ℕ} (hp : head ≤ p)
    (hp' : p < tail) : ∃ x, log[p - N]? = some x ∧ cells (p % N) = ⟨p, some x⟩ := by
  have hlt : p - N < log.length := by
    have := h.base_le
    have := h.tail_eq
    omega
  refine ⟨log[p - N], List.getElem?_eq_getElem hlt, ?_⟩
  rw [h.cell p hp' (by have := h.tail_le; omega), if_pos hp, List.getElem?_eq_getElem hlt]

/-- A cell with a value holds a retained position. -/
theorem Window.exists_of_val (h : Window N cells head tail log) {i : ℕ} {x : α} (hi : i < N)
    (hv : (cells i).val = some x) :
    ∃ p, head ≤ p ∧ p < tail ∧ p % N = i ∧ log[p - N]? = some x := by
  obtain ⟨p, hp, hp', rfl⟩ := exists_pos_of_lt hi (h.base_le.trans h.head_le)
  have hc := congrArg Cell.val (h.cell p hp hp')
  rw [hv] at hc
  by_cases hh : head ≤ p
  · exact ⟨p, hh, hp, rfl, by simpa [hh] using hc.symm⟩
  · simp [hh] at hc

/-- Taking the value at `head` moves the head by one. -/
theorem Window.evict (h : Window N cells head tail log) (hlt : head < tail) :
    Window N (Function.update cells (head % N) ⟨head, none⟩) (head + 1) tail log := by
  refine ⟨h.base_le.trans (Nat.le_succ _), hlt, by have := h.tail_le; omega, h.tail_eq, ?_⟩
  intro p hp hp'
  by_cases hm : p % N = head % N
  · have he : p = head := eq_of_mod_eq hp hp' hlt h.tail_le hm
    subst p
    simp
  · rw [Function.update_of_ne hm, h.cell p hp hp']
    have hne : p ≠ head := fun he => hm (he ▸ rfl)
    by_cases hle : head ≤ p
    · rw [if_pos hle, if_pos (by omega)]
    · rw [if_neg hle, if_neg (by omega)]

/-- The cell of the next position is empty while the ring is not full. -/
theorem Window.next_free (h : Window N cells head tail log) (hlt : tail < head + N) :
    (cells (tail % N)).val = none := by
  have hb := h.base_le.trans h.head_le
  have hpos : 0 < N := by have := h.head_le; omega
  have hc := h.cell (tail - N) (by omega) (by omega)
  rw [Nat.mod_eq_sub_mod hb, hc]
  exact if_neg (show ¬head ≤ tail - N by omega)

/-- The cell of the next position holds the oldest entry when the ring is full. -/
theorem Window.next_full (h : Window N cells head tail log) (hN : 0 < N)
    (he : tail = head + N) :
    ∃ x, log[head - N]? = some x ∧ cells (tail % N) = ⟨head, some x⟩ := by
  obtain ⟨x, hx, hc⟩ := h.held le_rfl (show head < tail by omega)
  exact ⟨x, hx, by rw [he, Nat.add_mod_right, hc]⟩

/-- Storing at the next position appends to the log. The head stays or, when
the ring was full, leaves the entry that has been overwritten. -/
theorem Window.store (h : Window N cells head tail log) {head' : ℕ} (x : α)
    (hle : head ≤ head') (hle' : head' ≤ tail) (hlt : tail < head' + N)
    (hgap : ∀ p, head ≤ p → p < head' → p + N ≤ tail) :
    Window N (Function.update cells (tail % N) ⟨tail, some x⟩) head' (tail + 1)
      (log ++ [x]) := by
  have hb := h.base_le
  have ht := h.tail_eq
  refine ⟨hb.trans hle, by omega, by omega, by simp; omega, ?_⟩
  intro p hp hp'
  rcases Nat.lt_succ_iff_lt_or_eq.mp hp with hlt' | rfl
  · have hne : p % N ≠ tail % N := by
      intro hm
      have := eq_of_mod_eq hp hp' (Nat.lt_succ_self tail) (by omega) hm
      omega
    rw [Function.update_of_ne hne, h.cell p hlt' (by omega)]
    by_cases hh : head' ≤ p
    · rw [if_pos (hle.trans hh), if_pos hh, List.getElem?_append_left (by omega)]
    · have hn : ¬head ≤ p := fun hc => by
        have := hgap p hc (by omega)
        omega
      rw [if_neg hn, if_neg hh]
  · rw [Function.update_self, if_pos hle', ht]
    simp

/-- Every stamp is the last position pushed to its cell, and a value still in
a cell is the log entry at the cell's stamp. -/
structure Trace (N : ℕ) (cells : ℕ → Cell α) (log : List α) : Prop where
  stamp : ∀ p, p < N + log.length → log.length ≤ p → (cells (p % N)).pos = p
  val : ∀ p x, p < N + log.length → log.length ≤ p → (cells (p % N)).val = some x →
    N ≤ p ∧ log[p - N]? = some x

/-- A window is in particular a trace. -/
theorem Window.trace (h : Window N cells head tail log) : Trace N cells log := by
  have ht := h.tail_eq
  have hb := h.base_le
  refine ⟨fun p hp hp' => by rw [h.cell p (by omega) (by omega)], fun p x hp hp' hv => ?_⟩
  rw [h.cell p (by omega) (by omega)] at hv
  by_cases hh : head ≤ p
  · exact ⟨hb.trans hh, by simpa [hh] using hv⟩
  · simp [hh] at hv

/-- Taking a value out of any cell preserves the trace. -/
theorem Trace.take (h : Trace N cells log) (i : ℕ) :
    Trace N (Function.update cells i ⟨(cells i).pos, none⟩) log := by
  refine ⟨fun p hp hp' => ?_, fun p x hp hp' hv => ?_⟩
  · by_cases hm : p % N = i
    · subst i
      simpa using h.stamp p hp hp'
    · rw [Function.update_of_ne hm]
      exact h.stamp p hp hp'
  · by_cases hm : p % N = i
    · subst i
      simp at hv
    · rw [Function.update_of_ne hm] at hv
      exact h.val p x hp hp' hv

/-- Storing at the next position preserves the trace of the longer log. -/
theorem Trace.store (h : Trace N cells log) (x : α) :
    Trace N (Function.update cells ((N + log.length) % N) ⟨N + log.length, some x⟩)
      (log ++ [x]) := by
  have hne : ∀ p, p < N + log.length → log.length + 1 ≤ p → p % N ≠ (N + log.length) % N := by
    intro p hp hp' hm
    have := eq_of_mod_eq (t := N + log.length + 1) (by omega) (by omega)
      (Nat.lt_succ_self _) (by omega) hm
    omega
  refine ⟨fun p hp hp' => ?_, fun p y hp hp' hv => ?_⟩
  · simp only [List.length_append, List.length_cons, List.length_nil] at hp hp'
    by_cases he : p = N + log.length
    · subst p
      simp
    · rw [Function.update_of_ne (hne p (by omega) (by omega))]
      exact h.stamp p (by omega) (by omega)
  · simp only [List.length_append, List.length_cons, List.length_nil] at hp hp'
    by_cases he : p = N + log.length
    · subst p
      rw [Function.update_self] at hv
      exact ⟨by omega, by simpa using hv⟩
    · rw [Function.update_of_ne (hne p (by omega) (by omega))] at hv
      obtain ⟨hN, hx⟩ := h.val p y (by omega) (by omega) hv
      exact ⟨hN, by rw [List.getElem?_append_left (by omega), hx]⟩

/-- A cell's stamp is a position of the last lap. -/
theorem Trace.stamp_bounds (h : Trace N cells log) (hN : 0 < N) (n : ℕ) :
    ∃ p, p < N + log.length ∧ log.length ≤ p ∧ p % N = n % N ∧ (cells (n % N)).pos = p := by
  obtain ⟨p, hp, hp', hm⟩ :=
    exists_pos_of_lt (Nat.mod_lt n hN) (show N ≤ N + log.length by omega)
  exact ⟨p, hp, by omega, hm, by rw [← hm]; exact h.stamp p hp (by omega)⟩

/-- A reader that finds its own position and a value reads its log entry. -/
theorem Trace.read (h : Trace N cells log) (hN : 0 < N) {n : ℕ} {x : α}
    (hp : (cells (n % N)).pos = n) (hv : (cells (n % N)).val = some x) :
    N ≤ n ∧ log[n - N]? = some x := by
  obtain ⟨p, hlt, hle, _, hs⟩ := h.stamp_bounds hN n
  rw [← hs, hp] at hlt hle
  exact h.val n x hlt hle hv

/-- A stamp at or past a reader's position shows that its entry was pushed. -/
theorem Trace.pushed (h : Trace N cells log) (hN : 0 < N) {n : ℕ} (hn : N ≤ n)
    (hp : n ≤ (cells (n % N)).pos) : n - N < log.length := by
  obtain ⟨p, hlt, _, _, hs⟩ := h.stamp_bounds hN n
  omega

/-- A stamp before a reader's position shows that nothing was pushed there yet. -/
theorem Trace.behind (h : Trace N cells log) (hN : 0 < N) {n : ℕ}
    (hp : (cells (n % N)).pos < n) : N + log.length ≤ n := by
  obtain ⟨p, hlt, hle, hmod, hs⟩ := h.stamp_bounds hN n
  by_contra hn
  have he : p = n := eq_of_mod_eq (t := N + log.length) hlt (by omega) (by omega) (by omega) hmod
  omega

/-- The entries of a map of positions point at retained entries of their keys. -/
def Indexes (N head tail : ℕ) (log : List α) (key : α → κ) (heads : κ → Option ℕ) : Prop :=
  ∀ s h, heads s = some h → head ≤ h ∧ h < tail ∧ (log[h - N]?).map key = some s

/-- Evicting the entry at `head` keeps an index without its key correct. -/
theorem Indexes.evict {key : α → κ} {heads heads' : κ → Option ℕ} {x : α}
    (hi : Indexes N head tail log key heads) (hx : log[head - N]? = some x)
    (hsub : ∀ s h, heads' s = some h → heads s = some h) (hkey : heads' (key x) = none) :
    Indexes N (head + 1) tail log key heads' := by
  intro s h hs
  obtain ⟨hle, hlt, hk⟩ := hi s h (hsub s h hs)
  refine ⟨?_, hlt, hk⟩
  rcases Nat.eq_or_lt_of_le hle with rfl | hgt
  · rw [hx] at hk
    rw [← Option.some.inj hk, hkey] at hs
    cases hs
  · exact hgt

/-- Appending to the log keeps the index correct. -/
theorem Indexes.append {key : α → κ} {heads : κ → Option ℕ} (x : α) (hN : N ≤ head)
    (ht : tail = N + log.length) (hi : Indexes N head tail log key heads) :
    Indexes N head (tail + 1) (log ++ [x]) key heads := by
  intro s h hs
  obtain ⟨hle, hlt, hk⟩ := hi s h hs
  refine ⟨hle, by omega, ?_⟩
  rw [List.getElem?_append_left (by omega), hk]

/-- The total weight of the log from its `n`-th entry on. -/
def weightFrom (w : α → ℕ) (log : List α) (n : ℕ) : ℕ := ((log.drop n).map w).sum

theorem weightFrom_eq_add {w : α → ℕ} {n : ℕ} {x : α} (h : log[n]? = some x) :
    weightFrom w log n = w x + weightFrom w log (n + 1) := by
  obtain ⟨hn, rfl⟩ := List.getElem?_eq_some_iff.mp h
  rw [weightFrom, List.drop_eq_getElem_cons hn, List.map_cons, List.sum_cons, weightFrom]

theorem weightFrom_append (w : α → ℕ) {n : ℕ} (x : α) (h : n ≤ log.length) :
    weightFrom w (log ++ [x]) n = weightFrom w log n + w x := by
  rw [weightFrom, List.drop_append_of_le_length h]
  simp [weightFrom]

/-- Fewer entries weigh no more. -/
theorem weightFrom_anti (w : α → ℕ) {n m : ℕ} (h : n ≤ m) :
    weightFrom w log m ≤ weightFrom w log n := by
  induction h with
  | refl => exact le_rfl
  | @step m _ ih =>
    refine le_trans ?_ ih
    cases hx : log[m]? with
    | some x =>
      rw [weightFrom_eq_add hx]
      exact Nat.le_add_left _ _
    | none =>
      have hlen : log.length ≤ m := List.getElem?_eq_none_iff.mp hx
      rw [weightFrom, List.drop_eq_nil_of_le (by omega)]
      exact Nat.zero_le _

theorem weightFrom_length (w : α → ℕ) : weightFrom w log log.length = 0 := by
  simp [weightFrom]

end RingLog
