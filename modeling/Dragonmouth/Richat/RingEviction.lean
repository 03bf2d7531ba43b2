import Mathlib.Logic.Relation
import Dragonmouth.Richat.Ring

/-!
# Evictions from a ring of parsed messages

The invariant of a ring and the specification of each eviction loop of
`try_clear`. The loops are runs of two kinds of steps: evicting the oldest
message together with the entry of its slot, and removing an entry from the
sender's own copy of the first positions.

## Main definitions

- `SenderShared.Inv`: cells, head, tail, bytes and index agree with the log
- `SenderShared.Evict`: the eviction of the oldest message
- `SenderShared.EvictStep`: the steps of all eviction loops
-/

namespace Dragonmouth.Richat

open RingLog

/-- A message as its cell keeps it, with the slot it was pushed for. -/
abbrev Pushed := Slot × ParsedMessage

def Pushed.size (x : Pushed) : ℕ := x.2.size

/-- What a cell holds, with its stamp. -/
def Item.cell (item : Item) : Cell Pushed := ⟨item.pos, item.data.map fun m => (item.slot, m)⟩

/-- The first position of every slot of a copy. -/
def headOf (slots : SlotHeads) (s : Slot) : Option ℕ := (slots.lookup s).map SlotHead.head

theorem headOf_eq_none {slots : SlotHeads} {s : Slot} : headOf slots s = none ↔ s ∉ slots := by
  rw [headOf, Option.map_eq_none_iff, Finmap.lookup_eq_none]

theorem headOf_erase {slots : SlotHeads} {k s : Slot} :
    headOf (slots.erase k) s = if s = k then none else headOf slots s := by
  by_cases h : s = k
  · subst s
    simp [headOf]
  · simp [headOf, Finmap.lookup_erase_ne h, h]

namespace SenderShared

variable {sender sender' : SenderShared} {log : List Pushed} {x : Pushed}

/-- The number of cells. -/
def ringSize (sender : SenderShared) : ℕ := sender.shared.mask + 1

def cells (sender : SenderShared) (i : ℕ) : Cell Pushed := (sender.shared.buffer i).cell

/-- Cells, head, tail and bytes agree with the log. -/
structure Core (sender : SenderShared) (log : List Pushed) : Prop where
  mask : ∃ k, sender.shared.mask + 1 = 2 ^ k
  window : Window sender.ringSize sender.cells sender.head sender.tail log
  bytes : sender.bytesTotal = weightFrom Pushed.size log (sender.head - sender.ringSize)

/-- The invariant of a ring: in addition every entry of the sender's own copy
points at a retained message of its slot. -/
structure Inv (sender : SenderShared) (log : List Pushed) : Prop where
  core : sender.Core log
  index : Indexes sender.ringSize sender.head sender.tail log Prod.fst (headOf sender.slots)

theorem Core.getIdx (h : sender.Core log) (p : ℕ) :
    sender.shared.getIdx p = p % sender.ringSize := by
  obtain ⟨k, hk⟩ := h.mask
  exact and_mask_eq_mod hk p

/-- The item of a retained position holds its message. -/
theorem Core.item (h : sender.Core log) {p : ℕ} (hp : sender.head ≤ p) (hp' : p < sender.tail) :
    ∃ x, log[p - sender.ringSize]? = some x ∧ (sender.shared.item p).pos = p ∧
      (sender.shared.item p).slot = x.1 ∧ (sender.shared.item p).data = some x.2 := by
  obtain ⟨x, hx, hc⟩ := h.window.held hp hp'
  rw [← h.getIdx, cells, Item.cell, Cell.mk.injEq, Option.map_eq_some_iff] at hc
  obtain ⟨hpos, m, hm, rfl⟩ := hc
  exact ⟨_, hx, hpos, rfl, hm⟩

/-- In terms of cells, replacing an item updates the cell of its position. -/
theorem cells_setItem (shared : Shared) (p : ℕ) (item : Item) (i : ℕ) :
    ((shared.setItem p item).buffer i).cell =
      Function.update (fun i => (shared.buffer i).cell) (shared.getIdx p) item.cell i := by
  rw [Shared.setItem]
  by_cases hi : i = shared.getIdx p
  · subst i
    simp
  · simp [Function.update_of_ne hi]

/-- The ring after the message `x` at `head` has been taken. -/
def evicted (sender : SenderShared) (x : Pushed) : SenderShared :=
  { (sender.takeItem sender.head).advanceHead with bytesTotal := sender.bytesTotal - x.size }

theorem subBytes_of_le {len : ℕ} (h : len ≤ sender.bytesTotal) :
    sender.subBytes len = .ok { sender with bytesTotal := sender.bytesTotal - len } := by
  rw [subBytes, if_neg (Nat.not_lt.mpr h)]

theorem Core.size_le (h : sender.Core log) (hx : log[sender.head - sender.ringSize]? = some x) :
    x.size ≤ sender.bytesTotal := by
  rw [h.bytes, weightFrom_eq_add hx]
  exact Nat.le_add_right _ _

/-- With a message at `head`, taking it succeeds. -/
theorem evictHead_eq (h : sender.Core log) (hlt : sender.head < sender.tail) (onEmpty : Panic) :
    ∃ x, log[sender.head - sender.ringSize]? = some x ∧
      (sender.shared.item sender.head).slot = x.1 ∧
      sender.evictHead onEmpty = .ok (sender.evicted x) := by
  obtain ⟨x, hx, -, hslot, hdata⟩ := h.item le_rfl hlt
  refine ⟨x, hx, hslot, ?_⟩
  simp only [evictHead, hdata]
  exact subBytes_of_le (h.size_le hx)

theorem Core.evicted (h : sender.Core log) (hlt : sender.head < sender.tail)
    (hx : log[sender.head - sender.ringSize]? = some x) : (sender.evicted x).Core log := by
  have hb := h.window.base_le
  refine ⟨h.mask, ?_, ?_⟩
  · obtain ⟨y, -, hpos, -, -⟩ := h.item le_rfl hlt
    have hcells : (sender.evicted x).cells =
        Function.update sender.cells (sender.shared.getIdx sender.head) ⟨sender.head, none⟩ := by
      ext i : 1
      rw [cells]
      refine (cells_setItem sender.shared sender.head _ i).trans ?_
      simp only [Item.cell, hpos]
      rfl
    have hw := h.window.evict hlt
    rw [← h.getIdx, ← hcells] at hw
    exact hw
  · have hs : sender.head + 1 - sender.ringSize = sender.head - sender.ringSize + 1 := by omega
    change sender.bytesTotal - x.size =
      weightFrom Pushed.size log (sender.head + 1 - sender.ringSize)
    rw [h.bytes, weightFrom_eq_add hx, hs]
    omega

@[simp] theorem forget_head (s : Slot) : (sender.forget s).head = sender.head := by
  rw [forget]
  split <;> rfl

@[simp] theorem forget_tail (s : Slot) : (sender.forget s).tail = sender.tail := by
  rw [forget]
  split <;> rfl

@[simp] theorem forget_bytesTotal (s : Slot) :
    (sender.forget s).bytesTotal = sender.bytesTotal := by
  rw [forget]
  split <;> rfl

@[simp] theorem forget_buffer (s : Slot) :
    (sender.forget s).shared.buffer = sender.shared.buffer := by
  rw [forget]
  split <;> rfl

@[simp] theorem forget_mask (s : Slot) : (sender.forget s).shared.mask = sender.shared.mask := by
  rw [forget]
  split <;> rfl

@[simp] theorem forget_sharedTail (s : Slot) :
    (sender.forget s).shared.tail = sender.shared.tail := by
  rw [forget]
  split <;> rfl

theorem headOf_forget (sender : SenderShared) (s k : Slot) :
    headOf (sender.forget s).slots k = if k = s then none else headOf sender.slots k := by
  rw [forget]
  split
  · exact headOf_erase
  · rename_i hs
    split
    · rename_i hk
      subst k
      exact headOf_eq_none.mpr hs
    · rfl

theorem forget_slots_sub (s : Slot) : (sender.forget s).slots.Sub sender.slots := by
  rw [forget]
  split
  · exact Finmap.Sub.erase _ _
  · exact .refl _

theorem Core.forget (h : sender.Core log) (s : Slot) : (sender.forget s).Core log := by
  refine ⟨?_, ?_, ?_⟩
  · simpa using h.mask
  · have hcells : (sender.forget s).cells = sender.cells := by
      ext i : 1
      simp [cells]
    rw [hcells, ringSize, forget_mask, forget_head, forget_tail]
    exact h.window
  · rw [ringSize, forget_mask, forget_head, forget_bytesTotal]
    exact h.bytes

/-- Evicting the oldest message together with the entry of its slot. -/
inductive Evict (log : List Pushed) (sender : SenderShared) : SenderShared → Prop where
  | intro (x : Pushed) (nonempty : sender.head < sender.tail)
      (oldest : log[sender.head - sender.ringSize]? = some x) :
      Evict log sender ((sender.evicted x).forget x.1)

/-- The steps of the eviction loops. -/
inductive EvictStep (log : List Pushed) (sender : SenderShared) : SenderShared → Prop where
  | message (sender' : SenderShared) (evict : Evict log sender sender') :
      EvictStep log sender sender'
  | slot (s : Slot) : EvictStep log sender { sender with slots := sender.slots.erase s }

abbrev Evictions (log : List Pushed) : SenderShared → SenderShared → Prop :=
  Relation.ReflTransGen (EvictStep log)

/-- What evictions leave unchanged. -/
structure Evicts (sender sender' : SenderShared) : Prop where
  mask : sender'.shared.mask = sender.shared.mask
  tail : sender'.tail = sender.tail
  sharedTail : sender'.shared.tail = sender.shared.tail
  head : sender.head ≤ sender'.head
  bytes : sender'.bytesTotal ≤ sender.bytesTotal
  slots : sender'.slots.Sub sender.slots

theorem Evicts.refl (sender : SenderShared) : Evicts sender sender :=
  ⟨rfl, rfl, rfl, le_rfl, le_rfl, .refl _⟩

theorem Evicts.trans {s₁ s₂ s₃ : SenderShared} (h : Evicts s₁ s₂) (h' : Evicts s₂ s₃) :
    Evicts s₁ s₃ :=
  ⟨h'.mask.trans h.mask, h'.tail.trans h.tail, h'.sharedTail.trans h.sharedTail,
    h.head.trans h'.head, h'.bytes.trans h.bytes, h'.slots.trans h.slots⟩

theorem Evicts.ringSize (h : Evicts sender sender') : sender'.ringSize = sender.ringSize :=
  congrArg (· + 1) h.mask

theorem Evict.evicts (h : Evict log sender sender') : Evicts sender sender' := by
  cases h with
  | intro x =>
    refine ⟨by simp; rfl, by simp; rfl, by simp; rfl, ?_, ?_, forget_slots_sub _⟩
    · rw [forget_head]
      exact Nat.le_succ _
    · rw [forget_bytesTotal]
      exact Nat.sub_le _ _

theorem Evict.inv (h : Evict log sender sender') (hi : sender.Inv log) : sender'.Inv log := by
  cases h with
  | intro x hlt hx =>
    refine ⟨(hi.core.evicted hlt hx).forget x.1, ?_⟩
    rw [SenderShared.ringSize, forget_mask, forget_head, forget_tail]
    refine hi.index.evict hx (fun s p hs => ?_) ?_
    · rw [headOf_forget] at hs
      split at hs
      · cases hs
      · exact hs
    · rw [headOf_forget, if_pos rfl]

theorem EvictStep.evicts (h : EvictStep log sender sender') : Evicts sender sender' := by
  cases h with
  | message _ he => exact he.evicts
  | slot s => exact ⟨rfl, rfl, rfl, le_rfl, le_rfl, Finmap.Sub.erase _ _⟩

theorem EvictStep.inv (h : EvictStep log sender sender') (hi : sender.Inv log) :
    sender'.Inv log := by
  cases h with
  | message _ he => exact he.inv hi
  | slot s =>
    refine ⟨⟨hi.core.mask, hi.core.window, hi.core.bytes⟩, fun k p hk => ?_⟩
    rw [headOf_erase] at hk
    split at hk
    · cases hk
    · exact hi.index k p hk

/-- Evictions preserve the invariant. -/
theorem Evictions.inv (h : Evictions log sender sender') (hi : sender.Inv log) :
    sender'.Inv log := by
  induction h with
  | refl => exact hi
  | tail _ hs ih => exact hs.inv ih

theorem Evictions.evicts (h : Evictions log sender sender') : Evicts sender sender' := by
  induction h with
  | refl => exact .refl _
  | tail _ hs ih => exact ih.trans hs.evicts

/-- Evictions of messages are evictions. -/
theorem evictions_of_evict (h : Relation.ReflTransGen (Evict log) sender sender') :
    Evictions log sender sender' :=
  Relation.ReflTransGen.mono (fun _ _ he => EvictStep.message _ he) _ _ h

end SenderShared

end Dragonmouth.Richat
