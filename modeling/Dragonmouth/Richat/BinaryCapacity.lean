import Mathlib.Data.Nat.Factorization.Basic
import Dragonmouth.Richat.Binary

/-!
# The capacity of the binary channel

The size of the channel is configured and not rounded, while the cell of a position
is found with a bit mask. For a power of two the mask spreads the positions over
all cells, and an item is refused only if every cell is occupied. For any other
size there is a bit that the mask leaves out, and the sender comes back to the
first cell before the others are used.

## Main results

- `refuses_only_full_iff`: which sizes are used to the full
-/

namespace Dragonmouth.Richat.Binary

/-- How many items have been accepted and not been taken out of their cells. -/
def Channel.unread (channel : Channel) (accepted received : List Bytes) : ℕ :=
  accepted.length - (received.length + channel.inFlight)

/-- After every run, an item is refused only if as many items are unread as the
channel was made for. -/
def RefusesOnlyFull (maxMessages : ℕ) : Prop :=
  ∀ (c : Channel) (accepted received : List Bytes), Run maxMessages c accepted received →
    ∀ (item item' : Bytes) (c' : Channel), c.send item = some (some item', c') →
      c.unread accepted received = maxMessages

/-- An item is refused if the cell of its position is occupied. -/
theorem cell_of_refused {c c' : Channel} {item item' : Bytes}
    (h : c.send item = some (some item', c')) :
    ∃ other, c.shared.cell c.tail = some (some other) := by
  rw [Channel.send] at h
  split at h
  · cases h
  · rename_i other hcell
    exact ⟨other, hcell⟩
  · cases h

theorem send_occupied {c : Channel} {item other : Bytes}
    (h : c.shared.cell c.tail = some (some other)) : c.send item = some (some item, c) := by
  rw [Channel.send, h]

theorem send_empty {c : Channel} (item : Bytes) (h : c.shared.cell c.tail = some none) :
    ∃ c', c.send item = some (none, c') ∧ c'.receiving = c.receiving := by
  rw [Channel.send, h]
  exact ⟨_, rfl, rfl⟩

section

variable {maxMessages k m : ℕ} {c : Channel} {accepted received : List Bytes}

theorem Holds.getIdx_two_pow (h : Holds (2 ^ k) c accepted received) (hk : 2 ^ k < 2 ^ 64)
    (pos : ℕ) : c.shared.getIdx pos = pos % 2 ^ k := by
  have hmask : c.shared.mask = 2 ^ k - 1 := by
    rw [h.mask, Nat.mod_eq_of_lt (Nat.lt_of_le_of_lt (Nat.sub_le _ _) hk)]
  rw [Shared.getIdx, hmask, Nat.and_two_pow_sub_one_eq_mod]

/-- No more items are under way than there are cells. -/
theorem Holds.unread_le (h : Holds (2 ^ k) c accepted received) (hk : 2 ^ k < 2 ^ 64) :
    c.unread accepted received ≤ 2 ^ k := by
  by_contra hlong
  have hpos := Nat.two_pow_pos k
  rw [Channel.unread] at hlong
  apply h.window.apart (received.length + c.inFlight) (received.length + c.inFlight + 2 ^ k)
    (Nat.le_refl _) (Nat.lt_add_of_pos_right hpos) (by omega)
  rw [h.getIdx_two_pow hk, h.getIdx_two_pow hk, Nat.add_mod_right]

/-- The sender comes back to a cell after all the others. -/
theorem Holds.le_unread (h : Holds (2 ^ k) c accepted received) (hk : 2 ^ k < 2 ^ 64)
    {other : Bytes} (hcell : c.shared.cell c.tail = some (some other)) :
    2 ^ k ≤ c.unread accepted received := by
  rw [h.cell_tail] at hcell
  obtain ⟨p, hlo, hlt, hidx⟩ := h.window.occupied hcell
  rw [h.getIdx_two_pow hk, h.getIdx_two_pow hk] at hidx
  have hdvd : 2 ^ k ∣ accepted.length - p :=
    Nat.dvd_of_mod_eq_zero (Nat.sub_mod_eq_zero_of_mod_eq hidx.symm)
  have hle : 2 ^ k ≤ accepted.length - p := Nat.le_of_dvd (Nat.sub_pos_of_lt hlt) hdvd
  rw [Channel.unread]
  omega

theorem refusesOnlyFull_two_pow (hk : 2 ^ k < 2 ^ 64) : RefusesOnlyFull (2 ^ k) := by
  intro c accepted received run item item' c' hsend
  have h := run.holds (Nat.two_pow_pos k)
  obtain ⟨other, hcell⟩ := cell_of_refused hsend
  exact Nat.le_antisymm (h.unread_le hk) (h.le_unread hk hcell)

/-- The mask of an even number of blocks and one more leaves out the bit of the block
size and keeps those below. -/
theorem and_mask (pos : ℕ) (hpos : pos < 2 ^ k) :
    pos &&& (2 ^ k * (2 * m + 1) - 1) = pos ∧ 2 ^ k &&& (2 ^ k * (2 * m + 1) - 1) = 0 := by
  have hmask : 2 ^ k * (2 * m + 1) - 1 = 2 ^ k * (2 * m) + (2 ^ k - 1) := by
    have hblock := Nat.two_pow_pos k
    rw [Nat.mul_add_one]
    omega
  have hlow : 2 ^ k - 1 < 2 ^ k := Nat.sub_lt (Nat.two_pow_pos k) Nat.one_pos
  rw [hmask]
  constructor
  · have hand : pos &&& (2 ^ k * (2 * m) + (2 ^ k - 1)) < 2 ^ k :=
      Nat.lt_of_le_of_lt Nat.and_le_left hpos
    rw [← Nat.mod_eq_of_lt hand, Nat.and_mod_two_pow, Nat.mul_add_mod,
      Nat.mod_eq_of_lt hlow, Nat.and_two_pow_sub_one_eq_mod, Nat.mod_mod, Nat.mod_eq_of_lt hpos]
  · have hbit : (2 ^ k * (2 * m) + (2 ^ k - 1)).testBit k = false := by
      rw [Nat.testBit_eq_decide_div_mod_eq, Nat.mul_add_div (Nat.two_pow_pos k),
        Nat.div_eq_of_lt hlow]
      simp
    rw [Nat.two_pow_and, hbit]
    rfl

theorem Holds.getIdx_blocks (h : Holds (2 ^ k * (2 * m + 1)) c accepted received)
    (hsize : 2 ^ k * (2 * m + 1) < 2 ^ 64) (pos : ℕ) :
    c.shared.getIdx pos = pos &&& (2 ^ k * (2 * m + 1) - 1) := by
  rw [Shared.getIdx, h.mask, Nat.mod_eq_of_lt (Nat.lt_of_le_of_lt (Nat.sub_le _ _) hsize)]

/-- As long as nothing is received, the first block of cells is filled one by one. -/
theorem run_block (hsize : 2 ^ k * (2 * m + 1) < 2 ^ 64) {n : ℕ} (hn : n ≤ 2 ^ k) :
    ∃ c, Run (2 ^ k * (2 * m + 1)) c (List.replicate n []) [] ∧ c.receiving = none := by
  induction n with
  | zero => exact ⟨channel _, .new, rfl⟩
  | succ n ih =>
    obtain ⟨c, run, hidle⟩ := ih (Nat.le_of_succ_le hn)
    have hmax : 1 ≤ 2 ^ k * (2 * m + 1) := Nat.mul_pos (Nat.two_pow_pos k) (Nat.succ_pos _)
    have h := run.holds hmax
    have hempty : c.shared.cell c.tail = some none := by
      rw [h.cell_tail]
      apply h.window.rest _ (h.getIdx_lt hmax _)
      intro p _ hp hidx
      rw [List.length_replicate] at hp hidx
      rw [h.getIdx_blocks hsize, h.getIdx_blocks hsize, (and_mask p (Nat.lt_trans hp hn)).1,
        (and_mask n hn).1] at hidx
      exact Nat.ne_of_lt hp hidx
    obtain ⟨c', hsend, hreceiving⟩ := send_empty [] hempty
    rw [List.replicate_succ']
    exact ⟨c', .accept run hsend, hreceiving.trans hidle⟩

/-- Then the sender is back at the first cell, and the next item is refused. -/
theorem refused_after_block (hsize : 2 ^ k * (2 * m + 1) < 2 ^ 64) :
    ∃ c, Run (2 ^ k * (2 * m + 1)) c (List.replicate (2 ^ k) []) [] ∧
      c.send [] = some (some [], c) ∧ c.unread (List.replicate (2 ^ k) []) [] = 2 ^ k := by
  obtain ⟨c, run, hidle⟩ := run_block (m := m) hsize (Nat.le_refl (2 ^ k))
  have h := run.holds (Nat.mul_pos (Nat.two_pow_pos k) (Nat.succ_pos _))
  have hfirst := h.window.own 0 [] (by rw [Channel.inFlight_idle hidle]; exact Nat.le_refl 0)
    (by rw [List.getElem?_replicate, if_pos (Nat.two_pow_pos k)])
  rw [h.getIdx_blocks hsize, Nat.zero_and] at hfirst
  have hoccupied : c.shared.cell c.tail = some (some []) := by
    rw [h.cell_tail, List.length_replicate, h.getIdx_blocks hsize,
      (and_mask 0 (Nat.two_pow_pos k)).2]
    exact hfirst
  refine ⟨c, run, send_occupied hoccupied, ?_⟩
  rw [Channel.unread, Channel.inFlight_idle hidle, List.length_replicate]
  rfl

end

/-- A channel is used to the full exactly if its size is a power of two. -/
theorem refuses_only_full_iff {maxMessages : ℕ} (hmax : 1 ≤ maxMessages)
    (husize : maxMessages < 2 ^ 64) : RefusesOnlyFull maxMessages ↔ maxMessages.isPowerOfTwo := by
  constructor
  · intro h
    obtain ⟨k, n, hodd, rfl⟩ := Nat.exists_eq_two_pow_mul_odd (Nat.ne_of_gt hmax)
    obtain ⟨m, rfl⟩ := hodd
    obtain ⟨c, run, hsend, hunread⟩ := refused_after_block husize
    have hfull := h c _ _ run [] [] c hsend
    rw [hunread] at hfull
    exact ⟨k, hfull.symm⟩
  · rintro ⟨k, rfl⟩
    exact refusesOnlyFull_two_pow husize

/-- The default size is used to the full. -/
theorem refuses_only_full_default : RefusesOnlyFull 65536 :=
  (refuses_only_full_iff (by decide) (by decide)).mpr ⟨16, rfl⟩

/-- A channel of three cells refuses the second of two items. -/
theorem refused_with_one_unread :
    ¬RefusesOnlyFull 3 ∧
      ∃ c, Run 3 c [[1]] [] ∧ c.send [2] = some (some [2], c) ∧ c.unread [[1]] [] = 1 := by
  have first : Run 3 _ ([] ++ [[1]]) [] := .accept .new rfl
  refine ⟨fun h => ?_, _, first, rfl, rfl⟩
  have hfull := h _ _ _ first [2] [2] _ rfl
  exact absurd hfull (by decide)

end Dragonmouth.Richat.Binary
